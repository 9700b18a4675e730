import Mathlib
import CfmlTidy.Proofs.Source.Bare
import CfmlTidy.Proofs.Source.Bracket
import CfmlTidy.Proofs.Source.Function
import CfmlTidy.Proofs.Text.Match

/-!
# Function declarations and their source

Declarations are found in a mask, and their offsets are used on the source. They point at the same
there: what a mask shows stands in the source at the same byte. A declaration reads its name in the
source, its parameters start behind its parenthesis at characters that are not blank, and its body
is what a pair of braces encloses, or everything behind a brace that is never closed. No two
declarations start at the same place, because each lies in the match that it was found by, and
matches do not overlap.
-/

namespace CfmlTidy.Source

open CfmlTidy.Text
open CfmlTidy.Text.Pattern (Spans)

section Heads

variable {text : List Char} {found : Pattern.Match} {lead name gap : List Char}

/-- What the head of a declaration is made up of: what stands before the name, the name, blanks, and
the parenthesis. -/
structure HeadParts (found : Pattern.Match) (lead name gap : List Char) : Prop where
  /-- The parts are all of the match. -/
  spans : Spans found.start found.stop (lead ++ (name ++ (gap ++ ['('])))
  /-- The name starts as names do. -/
  starts : ∃ c more, Pattern.isNameStart c = true ∧ name = c :: more
  /-- The name goes on as names do. -/
  goesOn : ∀ c ∈ name, Pattern.isNamePart c = true
  /-- Only blanks stand before the parenthesis. -/
  blank : ∀ c ∈ gap, isBlank c = true
  /-- The name is what is recorded of it. -/
  recorded : found.group? 4 = some ⟨4, found.start.offset + byteLength lead, name⟩

/-- The head of a declaration up to its name. -/
def headFront : List Pattern :=
  [.either .lineStart (.one fun c => isBlank c || isDeclarationEdge c),
    .optional (.seq (.group 1 accessWords) .blanks1),
    .optional (.seq (.group 2 (.word "static")) .blanks1),
    .optional
      (.seq (.group 3 (.seq (.one Pattern.isNameStart)
        (.many fun c => Pattern.isNamePart c || c == '.'))) .blanks1),
    .word "function",
    .blanks1]

/-- The name is recorded under a number of its own. -/
theorem four_not_mem_headFront : 4 ∉ (Pattern.all headFront).groups.map Prod.fst := by
  simp [headFront, accessWords]

/-- The head of a declaration has its parts. -/
theorem exists_headParts (listed : found ∈ functionHead.findAll text) :
    ∃ lead name gap, HeadParts found lead name gap := by
  obtain ⟨matched, -⟩ := Pattern.matches_of_mem_findAll listed
  have cut : functionHead = .all (headFront ++ [.group 4 .name, .blanks, .char '(']) := rfl
  rw [cut] at matched
  obtain ⟨middle, early, late, captures, front, back⟩ := matched.of_all_append
  obtain ⟨lead, split, offset⟩ := front.takes
  have before : Spans found.start middle lead := ⟨split, offset⟩
  cases back with
  | @seq _ _ _ afterName _ _ _ named rest =>
    cases named with
    | group inside =>
      cases rest with
      | @seq _ _ _ afterGap _ _ _ spaced closed =>
        obtain ⟨rfl, c, more, starts, goesOn, name⟩ := inside.of_name
        obtain ⟨rfl, gap, blank, spaces⟩ := spaced.of_many
        obtain ⟨rfl, paren, same, last⟩ := closed.of_one
        obtain rfl : paren = '(' := eq_of_beq same
        have continues : Pattern.isNamePart c = true := by rw [Pattern.isNamePart, starts]; rfl
        have others : early.find? (·.group == 4) = none := by
          refine List.find?_eq_none.mpr fun capture among own => four_not_mem_headFront ?_
          rw [← eq_of_beq own]
          exact front.group_mem capture among
        refine ⟨lead, c :: more, gap, before.append (name.append (spaces.append last)),
          ⟨c, more, starts, rfl⟩, List.forall_mem_cons.mpr ⟨continues, goesOn⟩, blank, ?_⟩
        rw [Pattern.Match.group?, captures, List.find?_append, others, before.offset.symm,
          name.take_eq]
        rfl

/-- The characters of a match are its parts. -/
theorem HeadParts.text_eq (parts : HeadParts found lead name gap) :
    found.text = lead ++ (name ++ (gap ++ ['('])) := parts.spans.take_eq

/-- Behind what stands before the name, the name is read, and its parenthesis. -/
theorem HeadParts.readsAt (parts : HeadParts found lead name gap)
    (listed : found ∈ functionHead.findAll text) :
    ReadsAt text (found.start.offset + byteLength lead)
      (name ++ (gap ++ '(' :: found.stop.rest)) := by
  obtain ⟨-, reads⟩ := Pattern.matches_of_mem_findAll listed
  have split : lead ++ (name ++ (gap ++ ['('])) ++ found.stop.rest =
      lead ++ (name ++ (gap ++ '(' :: found.stop.rest)) := by simp
  rw [parts.spans.rest, split] at reads
  exact reads.skip

/-- What is passed over at the start of a declaration ends before the name does. -/
theorem HeadParts.start_le (parts : HeadParts found lead name gap) :
    byteLength (found.text.takeWhile fun c => isBlank c || isDeclarationEdge c) ≤
      byteLength lead := by
  obtain ⟨c, more, starts, rfl⟩ := parts.starts
  rw [parts.text_eq, takeWhile_append_of_head]
  · have whole := congrArg byteLength
      (List.takeWhile_append_dropWhile (p := fun c => isBlank c || isDeclarationEdge c) (l := lead))
    rw [byteLength_append] at whole
    omega
  · rintro first ⟨⟩
    exact not_lead_of_isNameStart starts

/-- The name stands before the end of the match. -/
theorem HeadParts.name_lt (parts : HeadParts found lead name gap) :
    found.start.offset + byteLength lead + byteLength (name ++ gap) + 1 = found.stop.offset := by
  rw [parts.spans.offset]
  simp only [byteLength_append, byteLength]
  have single : '('.utf8Size = 1 := rfl
  omega

/-- A declaration has the name that its head has, and it starts and has its name inside the match
that its head is. -/
theorem HeadParts.of_declared (parts : HeadParts found lead name gap) {function : FunctionDecl}
    (declared : declarationOf? found = some function) :
    function.name = name ∧ function.nameOffset = found.start.offset + byteLength lead ∧
      function.params = (signatureAfter found.stop.offset found.stop.rest).1 ∧
      found.start.offset ≤ function.start ∧ function.start ≤ function.nameOffset ∧
      function.nameOffset < found.stop.offset := by
  obtain ⟨recorded, own, rfl⟩ := Option.map_eq_some_iff.mp declared
  obtain rfl := Option.some.inj (parts.recorded.symm.trans own)
  refine ⟨rfl, rfl, rfl, Nat.le_add_right _ _, ?_, ?_⟩
  · exact Nat.add_le_add_left parts.start_le found.start.offset
  · rw [← parts.name_lt]
    exact Nat.lt_succ_of_le (Nat.le_add_right _ _)

end Heads

section Params

variable {offset : Nat} {text : List Char} {param : Param}

/-- No piece of a parameter list starts before the list. -/
theorem le_of_mem_pieces {start offset : Nat} {depth : Int} {seen rest : List Char}
    {piece : Nat × List Char} (order : start ≤ offset)
    (listed : piece ∈ pieces start offset depth seen rest) : start ≤ piece.1 := by
  induction rest generalizing start offset depth seen with
  | nil =>
    rw [pieces] at listed
    split_ifs at listed
    · rw [List.mem_singleton.mp listed]
    · contradiction
  | cons c rest ih =>
    rw [pieces] at listed
    split_ifs at listed
    · rcases List.mem_cons.mp listed with rfl | later
      · exact le_rfl
      · have behind := ih le_rfl later
        omega
    all_goals exact ih (by omega) listed

/-- No parameter of a list starts before the list. -/
theorem le_of_mem_paramsOf (listed : param ∈ paramsOf offset text) : offset ≤ param.offset := by
  obtain ⟨piece, cut, declared⟩ := List.mem_filterMap.mp listed
  obtain ⟨name, -, rfl⟩ := Option.map_eq_some_iff.mp declared
  exact Nat.le_add_right_of_le (le_of_mem_pieces le_rfl cut)

/-- No parameter of a signature starts before what follows its parenthesis. -/
theorem le_of_mem_signature (listed : param ∈ (signatureAfter offset text).1) :
    offset ≤ param.offset := by
  unfold signatureAfter at listed
  split at listed
  · exact le_of_mem_paramsOf listed
  · exact le_of_mem_paramsOf listed

end Params

section Bodies

variable {text masked : List Char} {offset first last : Nat}

/-- A body in the text that it was found in: it stands behind a brace, no front of it closes more
braces than it opens, and it goes up to the brace that closes it or to the end. -/
structure BodyAt (masked : List Char) (first last : Nat) (hidden behind : List Char) : Prop where
  /-- The body is read behind a brace. -/
  opened : ∃ offset, first = offset + 1 ∧ ReadsAt masked offset ('{' :: (hidden ++ behind))
  /-- It is as long as it says. -/
  last_eq : last = first + byteLength hidden
  /-- No front of it closes more braces than it opens. -/
  stays : StaysOpen '{' '}' 0 hidden
  /-- It closes as many as it opens and ends at a brace that closes, or it goes up to the end. -/
  ends : (hidden.count '}' = hidden.count '{' ∧ behind.head? = some '}') ∨ behind = []

/-- Behind a brace, a body goes up to where it is closed. -/
theorem exists_bodyAt {rest : List Char} (reads : ReadsAt masked offset ('{' :: rest)) :
    ∃ hidden behind, BodyAt masked (offset + 1)
      (offset + 1 + byteLength (((splitAtClose '{' '}' 0 rest).map Prod.fst).getD rest))
      hidden behind := by
  have differ : '{' ≠ '}' := by decide
  cases cut : splitAtClose '{' '}' 0 rest with
  | none =>
    refine ⟨rest, [], ⟨offset, rfl, by rwa [List.append_nil]⟩, rfl, ?_, Or.inr rfl⟩
    exact staysOpen_of_splitAtClose differ cut
  | some parts =>
    obtain ⟨inside, after⟩ := parts
    obtain ⟨counts, stays⟩ := counts_of_splitAtClose differ cut
    refine ⟨inside, '}' :: after, ⟨offset, rfl, ?_⟩, rfl, stays, Or.inl ⟨counts, rfl⟩⟩
    rwa [← splitAtClose_eq_some cut]

/-- The body behind a signature starts behind the first brace, if no semicolon comes before it. -/
theorem exists_bodyAt_of_bodyOf? {rest : List Char} (reads : ReadsAt masked offset rest)
    (found : bodyOf? offset rest = some (first, last)) :
    ∃ hidden behind, BodyAt masked first last hidden behind := by
  rw [← List.takeWhile_append_dropWhile (p := fun c => c != '{' && c != ';') (l := rest)] at reads
  unfold bodyOf? at found
  split at found
  · rename_i inner left
    rw [left] at reads
    obtain ⟨hidden, behind, body⟩ := exists_bodyAt reads.skip
    refine ⟨hidden, behind, ?_⟩
    cases cut : splitAtClose '{' '}' 0 inner with
    | none =>
      rw [cut] at found body
      obtain ⟨rfl, rfl⟩ := Prod.mk.inj (Option.some.inj found)
      exact body
    | some parts =>
      rw [cut] at found body
      obtain ⟨rfl, rfl⟩ := Prod.mk.inj (Option.some.inj found)
      exact body
  · contradiction

/-- The body of a declaration stands in the text that the declaration was found in. -/
theorem exists_bodyAt_of_mem_functionsOf {function : FunctionDecl}
    (listed : function ∈ functionsOf masked) (extent : function.body = some (first, last)) :
    ∃ hidden behind, BodyAt masked first last hidden behind := by
  obtain ⟨found, among, declared⟩ := List.mem_filterMap.mp listed
  obtain ⟨name, -, rfl⟩ := Option.map_eq_some_iff.mp declared
  obtain ⟨matched, reads⟩ := Pattern.matches_of_mem_findAll among
  have behind := matched.readsAt reads
  simp only [signatureAfter] at extent
  split at extent
  · contradiction
  · rename_i inside after closed
    rw [splitAtClose_eq_some closed] at behind
    exact exists_bodyAt_of_bodyOf? behind.skip.next extent

end Bodies

section Sources

variable {text : List Char} {function : FunctionDecl} {first last : Nat}

/-- At an offset of a source a character stands that its mask shows. -/
def ShownAt (text : List Char) (offset : Nat) (c : Char) : Prop :=
  (∃ rest, ReadsAt text offset (c :: rest)) ∧ ∃ rest, ReadsAt (mask text) offset (c :: rest)

/-- A body between two offsets of a source. -/
structure IsBody (text : List Char) (first last : Nat) : Prop where
  /-- A brace stands before it. -/
  opened : ∃ offset, first = offset + 1 ∧ ShownAt text offset '{'
  /-- It is a part of the source and of the mask. Of the braces that the mask shows in it, no front
  of it closes more than it opens. Either it closes as many as it opens and ends at a brace that
  closes, or it goes up to the end of the source. -/
  inside : ∃ body hidden, sliceBytes first last text = some body ∧
    sliceBytes first last (mask text) = some hidden ∧ StaysOpen '{' '}' 0 hidden ∧
      ((hidden.count '}' = hidden.count '{' ∧ ShownAt text last '}') ∨ last = byteLength text)

/-- What the offsets of a declaration point at in the source. -/
structure FunctionDecl.Faithful (text : List Char) (function : FunctionDecl) : Prop where
  /-- The declaration starts where its name does or before. -/
  start_le : function.start ≤ function.nameOffset
  /-- Where the name starts, the source reads the name. -/
  name : ∃ rest, ReadsAt text function.nameOffset (function.name ++ rest)
  /-- Behind the name and blanks stands the parenthesis, and every parameter starts behind it at a
  character that is not blank. -/
  params : ∃ gap rest,
    ReadsAt (mask text) function.nameOffset (function.name ++ (gap ++ '(' :: rest)) ∧
    (∀ c ∈ gap, isBlank c = true) ∧
      ∀ param ∈ function.params,
        function.nameOffset + byteLength (function.name ++ gap) < param.offset ∧
        ∃ c, isBlank c = false ∧ ShownAt text param.offset c
  /-- The extent of the body is the extent of a body. -/
  body : ∀ first last, function.body = some (first, last) → IsBody text first last

/-- A character of the mask that is no space is shown where it stands. -/
theorem shownAt_of_readsAt {offset : Nat} {c : Char} {rest : List Char}
    (reads : ReadsAt (mask text) offset (c :: rest)) (noSpace : c ≠ ' ') : ShownAt text offset c :=
  ⟨(covers_maskFrom .code text).readsAt reads noSpace, rest, reads⟩

/-- A name that the mask shows stands in the source. -/
theorem readsAt_name {offset : Nat} {name rest : List Char}
    (reads : ReadsAt (mask text) offset (name ++ rest)) (filled : name ≠ [])
    (parts : ∀ c ∈ name, Pattern.isNamePart c = true) :
    ∃ later, ReadsAt text offset (name ++ later) := by
  have noSpace : ' ' ∉ name := fun listed => absurd (parts ' ' listed) (by decide)
  obtain ⟨c, more, rfl⟩ := List.exists_cons_of_ne_nil filled
  have first : c ≠ ' ' := by
    rintro rfl
    exact noSpace List.mem_cons_self
  obtain ⟨later, there, behind⟩ := (covers_maskFrom .code text).coversAt reads first
  obtain ⟨tail, whole⟩ := (behind.shown c).isPrefix noSpace (List.prefix_append (c :: more) rest)
  exact ⟨tail, whole ▸ there⟩

/-- A body of the mask is a body of the source. Its end lies between two characters of the source,
be it at a brace or at the end. -/
theorem BodyAt.isBody {hidden behind : List Char}
    (body : BodyAt (mask text) first last hidden behind) : IsBody text first last := by
  obtain ⟨offset, rfl, reads⟩ := body.opened
  have opened := shownAt_of_readsAt reads (by decide)
  obtain ⟨⟨later, there⟩, -⟩ := id opened
  have size : byteLength (mask text) = byteLength text := (covers_maskFrom .code text).byteLength_eq
  have within : ReadsAt (mask text) (offset + 1) (hidden ++ behind) := reads.next
  have order : offset + 1 ≤ last := by rw [body.last_eq]; omega
  have stop : ReadsAt (mask text) last behind := body.last_eq ▸ within.skip
  have ends : (hidden.count '}' = hidden.count '{' ∧ ShownAt text last '}') ∨
      last = byteLength text := by
    rcases body.ends with ⟨counts, closes⟩ | rfl
    · obtain ⟨after, rfl⟩ := List.head?_eq_some_iff.mp closes
      exact Or.inl ⟨counts, shownAt_of_readsAt stop (by decide)⟩
    · obtain ⟨front, whole, length⟩ := stop
      rw [List.append_nil] at whole
      exact Or.inr (by rw [← length, ← whole, size])
  obtain ⟨after, stop'⟩ : ∃ after, ReadsAt text last after := by
    rcases ends with ⟨-, ⟨after, closes⟩, -⟩ | rfl
    · exact ⟨_, closes⟩
    · exact ⟨[], .ended text⟩
  obtain ⟨inside, rfl, length⟩ := there.next.between stop' order
  refine ⟨⟨offset, rfl, opened⟩, inside, hidden, ?_, ?_, body.stays, ends⟩
  · rw [length]
    exact there.next.slice
  · rw [body.last_eq]
    exact within.slice

/-- A declaration found in a mask is faithful to the source. -/
theorem faithful_of_mem_functionsOf (listed : function ∈ functionsOf (mask text)) :
    function.Faithful text := by
  obtain ⟨found, among, declared⟩ := List.mem_filterMap.mp listed
  obtain ⟨lead, name, gap, parts⟩ := exists_headParts among
  obtain ⟨rfl, place, params, -, order, -⟩ := parts.of_declared declared
  have reads := parts.readsAt among
  rw [← place] at reads
  obtain ⟨c, more, -, filled⟩ := parts.starts
  refine ⟨order, readsAt_name reads (by simp [filled]) parts.goesOn, ?_, ?_⟩
  · refine ⟨gap, found.stop.rest, reads, parts.blank, fun param stated => ?_⟩
    obtain ⟨first, rest, visible, there⟩ :=
      (visibleAt_of_mem_functionsOf listed).2.2 param stated
    have noSpace : first ≠ ' ' := by
      rintro rfl
      exact absurd visible (by decide)
    refine ⟨?_, first, visible, shownAt_of_readsAt there noSpace⟩
    rw [params] at stated
    have behind := le_of_mem_signature stated
    have stop := parts.name_lt
    omega
  · intro first last extent
    obtain ⟨hidden, behind, body⟩ := exists_bodyAt_of_mem_functionsOf listed extent
    exact body.isBody

/-- Of two declarations in a mask, the later one starts later: behind the match that the first is
found by. -/
theorem pairwise_start_functionsOf (masked : List Char) :
    (functionsOf masked).Pairwise fun first second => first.start < second.start := by
  refine List.pairwise_filterMap.mpr ((Pattern.pairwise_findAll _ _).imp_of_mem ?_)
  intro found found' among among' apart first declared second declared'
  obtain ⟨lead, name, gap, parts⟩ := exists_headParts among
  obtain ⟨lead', name', gap', parts'⟩ := exists_headParts among'
  obtain ⟨-, -, -, -, order, within⟩ := parts.of_declared declared
  obtain ⟨-, -, -, starts, -, -⟩ := parts'.of_declared declared'
  omega

end Sources

/-- The offsets of the function declarations in a source are faithful to the source. The
declarations start at strictly increasing offsets. -/
theorem functionsOf_faithful (text : List Char) :
    (functionsOf (mask text)).Pairwise (fun first second => first.start < second.start) ∧
      ∀ function ∈ functionsOf (mask text), function.Faithful text :=
  ⟨pairwise_start_functionsOf (mask text), fun _ listed => faithful_of_mem_functionsOf listed⟩

end CfmlTidy.Source
