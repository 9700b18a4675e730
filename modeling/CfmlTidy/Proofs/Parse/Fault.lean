import Mathlib
import CfmlTidy.Proofs.Parse.Grammar
import CfmlTidy.Proofs.Text.Lowered

/-!
# Where faults stand

Structural reading reports a fault at a character of the source: at the bracket, at the first
character of the comment or literal that is never closed, or at the tag. None of these is blank. The
offsets are carried through the reading of lexemes, where a comment that starts in a script block
may end beyond it; the block then has no further lexeme.
-/

namespace CfmlTidy.Script

open CfmlTidy.Text

variable {text : List Char} {offset : Nat}

section Openings

/-- The kind of a comment is found by its opening. -/
theorem opening_prefix_of_commentKind? {kind : CommentKind}
    (found : commentKind? text = some kind) : kind.opening <+: text := by
  unfold commentKind? at found
  split at found <;> cases found <;> exact ⟨_, rfl⟩

/-- The kind of a markup comment is found by its opening. -/
theorem opening_prefix_of_markupComment? {kind : CommentKind}
    (found : markupComment? text = some kind) : kind.opening <+: text := by
  unfold markupComment? at found
  split at found <;> cases found <;> exact ⟨_, rfl⟩

/-- Comments open with a character that is not blank. -/
theorem visibleAt_of_opening {kind : CommentKind} {rest : List Char}
    (reads : ReadsAt text offset rest) (opens : kind.opening <+: rest) :
    VisibleAt text offset := by
  obtain ⟨tail, rfl⟩ := opens
  cases kind with
  | line | block | doc => exact ⟨'/', _, rfl, reads⟩
  | html | tag => exact ⟨'<', _, rfl, reads⟩

/-- Quotes and brackets are not blank. -/
theorem isBlank_of_isQuote {c : Char} (quotes : Source.isQuote c = true) : isBlank c = false := by
  rcases isQuote_iff.mp quotes with rfl | rfl <;> rfl

/-- A bracket is no blank. -/
theorem isBlank_of_isBracket {c : Char} (bracket : isBracket c = true) : isBlank c = false := by
  have listed := isBracket_iff.mp bracket
  fin_cases listed <;> rfl

/-- A tag starts with an angle, whatever its case. -/
theorem eq_of_startsWith {word rest : List Char} {c : Char}
    (starts : startsWith ('<' :: word) (c :: rest) = true) : c = '<' := by
  rw [startsWith, Bool.and_eq_true, beq_iff_eq] at starts
  exact (lower_eq_iff (by decide) (by decide)).mp starts.1.symm

/-- A tag starts with a character that is not blank. -/
theorem isBlank_of_startsWith {word rest : List Char} {c : Char}
    (starts : startsWith ('<' :: word) (c :: rest) = true) : isBlank c = false := by
  rw [eq_of_startsWith starts]
  rfl

end Openings

section Lexemes

/-- Whether a fault can be reported at a lexeme. -/
def Lexeme.isTelling : Lexeme → Bool
  | .openComment _ | .openLiteral | .bracket _ => true
  | .comment .. | .literal _ | .plain _ => false

/-- Behind a comment, the text after its closing delimiter is read. -/
theorem readsAt_afterComment {kind : CommentKind} {rest body after : List Char}
    (reads : ReadsAt text offset rest) (opens : kind.opening <+: rest)
    (cut : cutAt? kind.closing (rest.drop kind.opening.length) = some (body, after)) :
    ReadsAt text (offset + byteLength (kind.opening ++ body ++ kind.closing)) after := by
  obtain ⟨tail, rfl⟩ := opens
  rw [List.drop_left] at cut
  rw [cutAt?_eq_some cut] at reads
  apply ReadsAt.skip
  simpa only [List.append_assoc] using reads

/-- A block that starts with a comment, and what follows the block, are the comment and what follows
the comment. -/
theorem append_eq_of_cutAt? {kind : CommentKind} {inside beyond body after : List Char}
    (opens : kind.opening <+: inside)
    (cut : cutAt? kind.closing (inside.drop kind.opening.length ++ beyond) = some (body, after)) :
    inside ++ beyond = kind.opening ++ body ++ kind.closing ++ after := by
  obtain ⟨tail, rfl⟩ := opens
  rw [List.drop_left] at cut
  rw [List.append_assoc, cutAt?_eq_some cut]
  simp only [List.append_assoc]

/-- What is spelled at the start of a block leaves the rest of the block, or runs over its end. -/
theorem stillInside_cases {inside beyond spelled after : List Char}
    (cut : inside ++ beyond = spelled ++ after) :
    (∃ rest, inside = spelled ++ rest ∧ after = rest ++ beyond ∧ stillInside after beyond = rest) ∨
      ∃ more, more ≠ [] ∧ spelled = inside ++ more ∧ stillInside after beyond = [] := by
  rcases List.append_eq_append_iff.mp cut with ⟨more, rfl, rfl⟩ | ⟨rest, rfl, rfl⟩
  · by_cases empty : more = []
    · left
      refine ⟨[], ?_, ?_, ?_⟩ <;> simp [empty, stillInside]
    · exact Or.inr ⟨more, empty, rfl, by simp [stillInside]⟩
  · exact Or.inl ⟨rest, rfl, rfl, by simp [stillInside]⟩

/-- Behind a comment that starts in a block, the rest of the block is read, or the block is over. -/
theorem readsAt_stillInside {kind : CommentKind} {inside beyond body after : List Char}
    (reads : ReadsAt text offset (inside ++ beyond)) (opens : kind.opening <+: inside)
    (cut : cutAt? kind.closing (inside.drop kind.opening.length ++ beyond) = some (body, after)) :
    stillInside after beyond = [] ∨
      ReadsAt text (offset + byteLength (kind.opening ++ body ++ kind.closing))
        (stillInside after beyond ++ beyond) := by
  rcases stillInside_cases (append_eq_of_cutAt? opens cut) with
    ⟨rest, rfl, -, left⟩ | ⟨-, -, -, ended⟩
  · right
    rw [List.append_assoc] at reads
    rw [left]
    exact reads.skip
  · exact Or.inl ended

/-- Where a fault can be reported at a lexeme, a character stands that is not blank. -/
theorem visibleAt_of_mem_scan {inside beyond : List Char} {placed : Placed}
    (reads : ReadsAt text offset (inside ++ beyond)) (listed : placed ∈ scan offset inside beyond)
    (telling : placed.lexeme.isTelling = true) : VisibleAt text placed.offset := by
  fun_induction scan offset inside beyond with
  | case1 => contradiction
  | case2 offset c rest found body ih =>
    rcases List.mem_cons.mp listed with rfl | later
    · contradiction
    · obtain ⟨tail, split⟩ := opening_prefix_of_commentKind? found
      obtain ⟨rfl, rfl⟩ := List.cons.inj split
      refine ih ?_ later
      have behind : ReadsAt text (offset + 2) (tail ++ beyond) := reads.next.next
      rw [← List.takeWhile_append_dropWhile (p := (· != '\n')) (l := tail),
        List.append_assoc] at behind
      exact behind.skip
  | case3 offset c rest kind _ found _ =>
    rw [List.mem_singleton.mp listed]
    have opens := opening_prefix_of_commentKind? found
    exact visibleAt_of_opening reads (opens.trans (List.prefix_append _ beyond))
  | case4 offset c rest kind _ found body after cut ih =>
    rcases List.mem_cons.mp listed with rfl | later
    · contradiction
    · rcases readsAt_stillInside reads (opening_prefix_of_commentKind? found) cut with done | behind
      · rw [done, scan] at later
        contradiction
      · exact ih behind later
  | case5 offset c rest _ quotes _ =>
    rw [List.mem_singleton.mp listed]
    exact ⟨c, _, isBlank_of_isQuote quotes, reads⟩
  | case6 offset c rest _ quotes literal after cut ih =>
    rcases List.mem_cons.mp listed with rfl | later
    · contradiction
    · obtain ⟨body, -, rfl, rfl, -⟩ := quoted_of_cutLiteral? cut
      refine ih ?_ later
      apply ReadsAt.skip
      simpa using reads
  | case7 offset c rest _ _ ih =>
    rcases List.mem_cons.mp listed with rfl | later
    · by_cases bracket : isBracket c = true
      · exact ⟨c, _, isBlank_of_isBracket bracket, reads⟩
      · rw [if_neg bracket] at telling
        contradiction
    · exact ih reads.next later

end Lexemes

section Faults

/-- A fault of a list is the first of it or a later one. -/
theorem of_mem_fault_cons {first : Nat} {reported fault : Fault} {later : List Event}
    {place : Nat → Prop} (met : .fault offset fault ∈ Event.fault first reported :: later)
    (here : place first) (behind : .fault offset fault ∈ later → place offset) : place offset := by
  rcases List.mem_cons.mp met with same | inside
  · obtain ⟨rfl, -⟩ := Event.fault.inj same
    exact here
  · exact behind inside

/-- Balancing reports faults where brackets were opened before and where lexemes are telling. -/
theorem fault_of_mem_balance {stack : List (Char × Nat)} {lexemes : List Placed}
    {place : Nat → Prop} {fault : Fault} (opened : ∀ entry ∈ stack, place entry.2)
    (told : ∀ placed ∈ lexemes, placed.lexeme.isTelling = true → place placed.offset)
    (met : .fault offset fault ∈ balance stack lexemes) : place offset := by
  induction lexemes generalizing stack with
  | nil =>
    rw [balance] at met
    obtain ⟨entry, listed, same⟩ := List.mem_map.mp met
    obtain ⟨rfl, -⟩ := Event.fault.inj same
    exact opened entry (List.mem_reverse.mp listed)
  | cons placed rest ih =>
    obtain ⟨spot, lexeme⟩ := placed
    obtain ⟨first, others⟩ := List.forall_mem_cons.mp told
    cases lexeme with
    | comment kind body =>
      rw [balance, commentEvent] at met
      rcases List.mem_cons.mp met with same | later
      · contradiction
      · exact ih opened others later
    | openComment kind =>
      rw [balance] at met
      exact of_mem_fault_cons met (first rfl) (ih opened others)
    | openLiteral =>
      rw [balance] at met
      exact of_mem_fault_cons met (first rfl) (ih opened others)
    | literal text =>
      rw [balance] at met
      exact ih opened others met
    | plain c =>
      rw [balance] at met
      exact ih opened others met
    | bracket c =>
      have here : place spot := first rfl
      cases partner : Source.closerOf? c with
      | some closing =>
        simp only [balance, partner] at met
        exact ih (List.forall_mem_cons.mpr ⟨here, opened⟩) others met
      | none =>
        cases stack with
        | nil =>
          simp only [balance, partner] at met
          exact of_mem_fault_cons met here (ih opened others)
        | cons entry outer =>
          obtain ⟨opening, openedAt⟩ := entry
          have below := (List.forall_mem_cons.mp opened).2
          by_cases matched : Source.closerOf? opening = some c
          · simp only [balance, partner, if_pos matched] at met
            exact ih below others met
          · simp only [balance, partner, if_neg matched] at met
            exact of_mem_fault_cons met here (ih below others)

/-- Where a fault of a script block stands, a character stands that is not blank. -/
theorem visibleAt_of_mem_readBlock {start : Nat} {inside beyond : List Char} {fault : Fault}
    (reads : ReadsAt text start (inside ++ beyond))
    (met : .fault offset fault ∈ readBlock start inside beyond) : VisibleAt text offset := by
  refine fault_of_mem_balance (by simp) ?_ met
  intro placed listed telling
  exact visibleAt_of_mem_scan reads listed telling

/-- Behind the end of a tag, the text after it is read. -/
theorem readsAt_afterTag {rest tag after : List Char} (reads : ReadsAt text offset rest)
    (cut : cutAt? ['>'] rest = some (tag, after)) :
    ReadsAt text (offset + byteLength tag + 1) after := by
  rw [cutAt?_eq_some cut, List.append_assoc] at reads
  exact reads.skip.next

/-- Where a fault of markup stands, a character stands that is not blank. -/
theorem visibleAt_of_mem_readMarkup {start : Nat} {rest : List Char} {fault : Fault}
    (reads : ReadsAt text start rest) (met : .fault offset fault ∈ readMarkup start rest) :
    VisibleAt text offset := by
  fun_induction readMarkup start rest with
  | case1 => contradiction
  | case2 start c rest kind found _ =>
    obtain ⟨rfl, -⟩ := Event.fault.inj (List.mem_singleton.mp met)
    exact visibleAt_of_opening reads (opening_prefix_of_markupComment? found)
  | case3 start c rest kind found body after cut ih =>
    rcases List.mem_cons.mp met with same | later
    · rw [commentEvent] at same
      contradiction
    · exact ih (readsAt_afterComment reads (opening_prefix_of_markupComment? found) cut) later
  | case4 start c rest _ opens _ =>
    obtain ⟨rfl, -⟩ := Event.fault.inj (List.mem_singleton.mp met)
    exact ⟨c, rest, isBlank_of_startsWith opens, reads⟩
  | case5 start c rest _ opens tag body cut inner _ =>
    refine of_mem_fault_cons met ⟨c, rest, isBlank_of_startsWith opens, reads⟩ fun later => ?_
    refine visibleAt_of_mem_readBlock ?_ later
    rw [List.append_nil]
    exact readsAt_afterTag reads cut
  | case6 start c rest _ opens tag body cut inner inside beyond closed ih =>
    have block : ReadsAt text inner (inside ++ beyond) := by
      rw [← cutBefore?_eq_some closed]
      exact readsAt_afterTag reads cut
    rcases List.mem_append.mp met with early | late
    · exact visibleAt_of_mem_readBlock block early
    · split at late
      · contradiction
      · rename_i closing after ended
        exact ih closing after ended (readsAt_afterTag block.skip ended) late
  | case7 start c rest _ _ ih => exact ih reads.next met

/-- Where a fault of a file stands, a character of the file stands that is not blank. -/
theorem visibleAt_of_mem_events {path : String} {content : List Char} {fault : Fault}
    (met : .fault offset fault ∈ events path content) : VisibleAt content offset := by
  unfold events at met
  split_ifs at met
  · refine visibleAt_of_mem_readBlock ?_ met
    rw [List.append_nil]
    exact ReadsAt.start content
  · exact visibleAt_of_mem_readMarkup (ReadsAt.start content) met

end Faults

end CfmlTidy.Script
