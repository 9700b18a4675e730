import Mathlib
import CfmlTidy.Proofs.Text.Pattern
import CfmlTidy.Source.Function

/-!
# Where function declarations stand

The offsets of a function declaration are those of characters of the text it was found in: where
the declaration starts, where its name starts, and where each parameter starts, a character stands
that is not blank. For parameters the invariant goes through the cutting of the parameter list: a
piece is read at the offset that is kept with it.
-/

namespace CfmlTidy.Source

open CfmlTidy.Text

section Params

variable {text : List Char} {offset : Nat}

/-- What is cut at a closing bracket are the texts before and after it. -/
theorem splitAtClose_eq_some {opening closing : Char} {depth : Nat} {inside after : List Char}
    (found : splitAtClose opening closing depth text = some (inside, after)) :
    text = inside ++ closing :: after := by
  fun_induction splitAtClose opening closing depth text generalizing inside with
  | case1 => contradiction
  | case2 depth rest ih =>
    obtain ⟨⟨front, back⟩, later, same⟩ := Option.map_eq_some_iff.mp found
    obtain ⟨rfl, rfl⟩ := Prod.mk.inj same
    rw [ih later, List.cons_append]
  | case3 rest _ =>
    obtain ⟨rfl, rfl⟩ := Prod.mk.inj (Option.some.inj found)
    rfl
  | case4 rest _ outer ih =>
    obtain ⟨⟨front, back⟩, later, same⟩ := Option.map_eq_some_iff.mp found
    obtain ⟨rfl, rfl⟩ := Prod.mk.inj same
    rw [ih later, List.cons_append]
  | case5 depth c rest _ _ ih =>
    obtain ⟨⟨front, back⟩, later, same⟩ := Option.map_eq_some_iff.mp found
    obtain ⟨rfl, rfl⟩ := Prod.mk.inj same
    rw [ih later, List.cons_append]

/-- Each piece of a parameter list is read at its offset. Behind a comma the next piece starts with
nothing seen of it. -/
theorem readsAt_of_mem_pieces {rest after : List Char} {piece : Nat × List Char}
    (start offset : Nat) (depth : Int) (seen : List Char)
    (reads : ReadsAt text start (seen.reverse ++ rest ++ after))
    (reached : offset = start + byteLength seen.reverse)
    (listed : piece ∈ pieces start offset depth seen rest) :
    ∃ later, ReadsAt text piece.1 (piece.2 ++ later) := by
  induction rest generalizing start offset depth seen with
  | nil =>
    rw [pieces] at listed
    split_ifs at listed
    · rw [List.mem_singleton.mp listed]
      rw [List.append_nil] at reads
      exact ⟨after, reads⟩
    · contradiction
  | cons c others ih =>
    rw [pieces] at listed
    by_cases comma : c = ',' ∧ depth ≤ 0
    · rw [if_pos comma] at listed
      rcases List.mem_cons.mp listed with rfl | later
      · exact ⟨c :: others ++ after, by rwa [List.append_assoc] at reads⟩
      · refine ih _ _ _ [] ?_ (by simp [byteLength]) later
        rw [List.append_assoc] at reads
        have behind := reads.skip.next
        rw [← reached, comma.1] at behind
        exact behind
    · rw [if_neg comma] at listed
      refine ih _ _ _ (c :: seen) ?_ ?_ listed
      · simpa using reads
      · rw [List.reverse_cons, byteLength_append, reached, byteLength, byteLength, Nat.add_assoc,
          Nat.add_zero]

/-- A parameter starts at the first character of its piece that is not blank. -/
theorem visibleAt_of_paramOf? {piece later : List Char} {param : Param}
    (reads : ReadsAt text offset (piece ++ later)) (declared : paramOf? offset piece = some param) :
    VisibleAt text param.offset := by
  obtain ⟨name, last, rfl⟩ := Option.map_eq_some_iff.mp declared
  have filled : words (piece.takeWhile (· != '=')) ≠ [] := by
    intro none
    rw [none] at last
    simp at last
  obtain ⟨word, listed⟩ := List.exists_mem_of_ne_nil _ filled
  obtain ⟨among, kept⟩ := List.mem_filter.mp listed
  have nonempty : word ≠ [] := by
    rintro rfl
    simp at kept
  obtain ⟨c, inside⟩ := List.exists_mem_of_ne_nil word nonempty
  obtain ⟨within, visible⟩ := of_mem_splitBy among c inside
  have member : c ∈ piece := (List.takeWhile_sublist _).subset within
  exact reads.afterLead isBlank member visible

/-- Where a parameter of a list starts, a character stands that is not blank. -/
theorem visibleAt_of_mem_paramsOf {list after : List Char} {param : Param}
    (reads : ReadsAt text offset (list ++ after)) (listed : param ∈ paramsOf offset list) :
    VisibleAt text param.offset := by
  obtain ⟨piece, cut, declared⟩ := List.mem_filterMap.mp listed
  have whole : ReadsAt text offset ([].reverse ++ list ++ after) := by simpa using reads
  obtain ⟨later, there⟩ :=
    readsAt_of_mem_pieces offset offset 0 [] whole (by simp [byteLength]) cut
  exact visibleAt_of_paramOf? there declared

/-- Where a parameter of a signature starts, a character stands that is not blank. -/
theorem visibleAt_of_mem_signature {rest : List Char} {param : Param}
    (reads : ReadsAt text offset rest) (listed : param ∈ (signatureAfter offset rest).1) :
    VisibleAt text param.offset := by
  unfold signatureAfter at listed
  split at listed
  · rw [← List.append_nil rest] at reads
    exact visibleAt_of_mem_paramsOf reads listed
  · rename_i closed
    rw [splitAtClose_eq_some closed] at reads
    exact visibleAt_of_mem_paramsOf reads listed

end Params

section Declarations

/-- Neither blanks nor the marks after which a declaration may start can start a name. -/
theorem not_lead_of_isNameStart {c : Char} (starts : Pattern.isNameStart c = true) :
    (isBlank c || isDeclarationEdge c) = false := by
  rw [Pattern.isBlank_of_isNameStart starts, Bool.false_or, Bool.eq_false_iff]
  intro edge
  have either : c = ';' ∨ c = '\x7b' ∨ c = '\x7d' := by
    simpa [isDeclarationEdge, or_assoc] using edge
  rcases either with rfl | rfl | rfl <;> exact absurd starts (by decide)

/-- The head of a declaration has the word for functions in it. -/
theorem includes_functionHead : functionHead.Includes Pattern.isNameStart := by
  refine Pattern.includes_all (.word "function") (by simp) ?_
  exact Pattern.includes_of_startsWith (Pattern.startsWith_word (by decide))

/-- Where a declaration, its name or one of its parameters starts, a character stands that is not
blank. -/
theorem visibleAt_of_mem_functionsOf {masked : List Char} {function : FunctionDecl}
    (listed : function ∈ functionsOf masked) :
    VisibleAt masked function.start ∧ VisibleAt masked function.nameOffset ∧
      ∀ param ∈ function.params, VisibleAt masked param.offset := by
  obtain ⟨found, among, declared⟩ := List.mem_filterMap.mp listed
  obtain ⟨name, recorded, rfl⟩ := Option.map_eq_some_iff.mp declared
  obtain ⟨matched, reads⟩ := Pattern.matches_of_mem_findAll among
  refine ⟨?_, ?_, ?_⟩
  · obtain ⟨c, rest, passed, there⟩ := Pattern.readsAt_afterLead
      (fun c => isBlank c || isDeclarationEdge c) among includes_functionHead
      fun c starts => not_lead_of_isNameStart starts
    exact ⟨c, rest, (Bool.or_eq_false_iff.mp passed).1, there⟩
  · have named : ∀ body, (4, body) ∈ functionHead.groups →
        body.StartsWith Pattern.isNameStart := by
      intro body grouped
      have only : body = .name := by
        simpa [functionHead, accessWords] using grouped
      rw [only]
      exact Pattern.startsWith_name
    obtain ⟨c, rest, starts, there⟩ := Pattern.readsAt_group among recorded named
    exact ⟨c, rest, Pattern.isBlank_of_isNameStart starts, there⟩
  · intro param stated
    exact visibleAt_of_mem_signature (matched.readsAt reads) stated

end Declarations

end CfmlTidy.Source
