import Mathlib
import CfmlTidy.Proofs.Source.Bare

/-!
# Masking in parts

Masking reads a text from front to back, and all that it remembers of the front is the region in
which the front ends. So a text can be cut in two before a character that is part of no delimiter:
the front is masked as it would be alone, and the back from that region on. Cut at its newlines, a
text is masked line by line, each line from the region that it starts in.
-/

namespace CfmlTidy.Source

open CfmlTidy.Script (StartsComment closing_ne_nil isQuote_iff prefix_append_cases)
open CfmlTidy.Text (ReadsAt byteLength isBlank joinWith joinWith_splitOn of_mem_splitBy
  splitBy_ne_nil splitBy_of_uncut splitOn splitOn_append)

/-- The region in which a text ends that starts in a region. -/
def Region.after : Region → List Char → Region
  | region, [] => region
  | .code, '/' :: '/' :: rest => after .lineComment rest
  | .code, '/' :: '*' :: rest => after .blockComment rest
  | .code, '<' :: '!' :: '-' :: '-' :: '-' :: rest => after .tagComment rest
  | .code, c :: rest => after (if isQuote c then .literal c else .code) rest
  | .lineComment, c :: rest => after (if c = '\n' then .code else .lineComment) rest
  | .blockComment, '*' :: '/' :: rest => after .code rest
  | .blockComment, _ :: rest => after .blockComment rest
  | .tagComment, '-' :: '-' :: '-' :: '>' :: rest => after .code rest
  | .tagComment, _ :: rest => after .tagComment rest
  | .literal quote, [c] => if c = '\n' ∨ c = quote then .code else .literal quote
  | .literal quote, c :: next :: rest =>
    if c = '\n' then after .code (next :: rest)
    else if c = quote then
      if next = quote then after (.literal quote) rest else after .code (next :: rest)
    else after (.literal quote) (next :: rest)

/-- In code that no comment starts, a quote opens a literal, and any other character changes
nothing. -/
theorem Region.after_code {c : Char} {rest : List Char} (noComment : ¬ StartsComment (c :: rest)) :
    Region.code.after (c :: rest) = after (if isQuote c then .literal c else .code) rest := by
  rw [Region.after]
  · rintro tail rfl rfl
    exact noComment ⟨.line, by simp, tail, rfl⟩
  · rintro tail rfl rfl
    exact noComment ⟨.block, by simp, tail, rfl⟩
  · rintro tail rfl rfl
    exact noComment ⟨.tag, by simp, tail, rfl⟩

/-- A comment with delimiters goes on behind a character that does not close it. -/
theorem Region.after_inside {kind : CommentKind} (kinds : kind = .block ∨ kind = .tag) {c : Char}
    {rest : List Char} (goesOn : ¬ kind.closing <+: c :: rest) :
    (regionOf kind).after (c :: rest) = (regionOf kind).after rest := by
  rcases kinds with rfl | rfl
  · rw [regionOf, Region.after]
    · rintro tail rfl rfl
      exact goesOn ⟨tail, rfl⟩
    · decide
  · rw [regionOf, Region.after]
    rintro tail rfl rfl
    exact goesOn ⟨tail, rfl⟩

/-- Characters that are part of no delimiter. -/
def IsApart (c : Char) : Prop := c ∉ ['/', '*', '<', '!', '-', '>', '"', '\'']

/-- Whether a character stands apart can be told from it. -/
instance (c : Char) : Decidable (IsApart c) := inferInstanceAs (Decidable (¬ _))

section Cuts

variable {region : Region} {c : Char} {front : List Char}

/-- A blank stands apart. -/
theorem IsApart.of_isBlank (blank : isBlank c = true) : IsApart c := by
  intro listed
  fin_cases listed <;> contradiction

/-- A word that a character is no part of starts before the character. -/
theorem prefix_of_not_mem {word back : List Char} (starts : word <+: front ++ c :: back)
    (missing : c ∉ word) : word <+: front := by
  rcases prefix_append_cases starts with within | ⟨first, more, rfl, next⟩
  · exact within
  · obtain rfl : c = first := Option.some.inj next
    exact absurd (List.mem_append_right front List.mem_cons_self) missing

/-- A character that is apart is part of no delimiter of a comment. -/
theorem IsApart.not_mem_delimiter (apart : IsApart c) (kind : CommentKind) :
    c ∉ kind.opening ∧ c ∉ kind.closing := by
  rw [IsApart] at apart
  cases kind <;> simp_all [CommentKind.opening, CommentKind.closing]

/-- What stands apart is no quote. -/
theorem IsApart.ne_quote (apart : IsApart c) {quote : Char} (quotes : isQuote quote = true) :
    c ≠ quote := by
  rintro rfl
  refine apart ?_
  rcases isQuote_iff.mp quotes with rfl | rfl <;> simp

/-- No comment starts with a character that is apart. -/
theorem IsApart.not_startsComment (apart : IsApart c) (rest : List Char) :
    ¬ StartsComment (c :: rest) := by
  refine Script.not_startsComment ?_ ?_ rest <;>
    · rintro rfl
      exact absurd apart (by decide)

/-- In code, a character that is apart is shown and changes nothing. -/
theorem IsApart.maskFrom_code (apart : IsApart c) (rest : List Char) :
    maskFrom .code (c :: rest) = c :: maskFrom .code rest := by
  have noQuote : isQuote c = false := by
    by_contra quotes
    exact apart.ne_quote (Bool.not_eq_false _ ▸ quotes) rfl
  rw [Source.maskFrom_code (apart.not_startsComment rest), noQuote]
  rfl

/-- In code, characters that are apart are shown. -/
theorem maskFrom_code_append (apart : ∀ c ∈ front, IsApart c) (rest : List Char) :
    maskFrom .code (front ++ rest) = front ++ maskFrom .code rest := by
  induction front with
  | nil => rfl
  | cons c front ih =>
    obtain ⟨first, others⟩ := List.forall_mem_cons.mp apart
    rw [List.cons_append, first.maskFrom_code, ih others, List.cons_append]

/-- A comment that starts before a character that is apart starts without what follows. -/
theorem IsApart.startsComment (apart : IsApart c) {back : List Char}
    (starts : StartsComment (front ++ c :: back)) : StartsComment front := by
  obtain ⟨kind, listed, opens⟩ := starts
  exact ⟨kind, listed, prefix_of_not_mem opens (apart.not_mem_delimiter kind).1⟩

/-- Behind a character of a comment that does not close it, a comment that is cut goes on. -/
theorem IsApart.maskFrom_inside_append (apart : IsApart c) {kind : CommentKind}
    (kinds : kind = .block ∨ kind = .tag) {first : Char} {rest back : List Char}
    (goesOn : ¬ kind.closing <+: first :: rest)
    (later : maskFrom (regionOf kind) (rest ++ c :: back) =
      maskFrom (regionOf kind) rest ++ maskFrom ((regionOf kind).after rest) (c :: back)) :
    maskFrom (regionOf kind) (first :: rest ++ c :: back) =
      blanked first ++ maskFrom (regionOf kind) rest ++
        maskFrom ((regionOf kind).after (first :: rest)) (c :: back) := by
  have goesOn' : ¬ kind.closing <+: first :: (rest ++ c :: back) := by
    rw [← List.cons_append]
    exact fun closes => goesOn (prefix_of_not_mem closes (apart.not_mem_delimiter kind).2)
  rw [List.cons_append, maskFrom_inside kinds goesOn', later, Region.after_inside kinds goesOn,
    List.append_assoc]

/-- A text is masked in two parts when it is cut before a character that is part of no delimiter. -/
theorem maskFrom_append (apart : IsApart c) (quoted : region.IsQuoted) (back : List Char) :
    maskFrom region (front ++ c :: back) =
      maskFrom region front ++ maskFrom (region.after front) (c :: back) := by
  fun_induction maskFrom region front with
  | case1 region => rfl
  | case2 rest ih => exact congrArg (' ' :: ' ' :: ·) (ih trivial)
  | case3 rest ih => exact congrArg (' ' :: ' ' :: ·) (ih trivial)
  | case4 rest ih => exact congrArg (' ' :: ' ' :: ' ' :: ' ' :: ' ' :: ·) (ih trivial)
  | case5 first rest noLine noBlock noTag ih =>
    have noComment := not_startsComment_of_forall noLine noBlock noTag
    have code : ¬ StartsComment (first :: (rest ++ c :: back)) := by
      rw [← List.cons_append]
      exact fun starts => noComment (apart.startsComment starts)
    rw [List.cons_append, maskFrom_code code, ih (Region.isQuoted_afterCode first),
      Region.after_code noComment, List.cons_append]
  | case6 first rest ih =>
    have quoted' : Region.IsQuoted (if first = '\n' then .code else .lineComment) := by
      split_ifs <;> trivial
    rw [List.cons_append, maskFrom, ih quoted', Region.after, List.append_assoc]
  | case7 rest ih => exact congrArg (' ' :: ' ' :: ·) (ih trivial)
  | case8 first rest noClose ih =>
    have goesOn : ¬ CommentKind.block.closing <+: first :: rest := by
      rintro ⟨tail, ⟨⟩⟩
      exact noClose tail rfl rfl
    exact apart.maskFrom_inside_append (Or.inl rfl) goesOn (ih trivial)
  | case9 rest ih => exact congrArg (' ' :: ' ' :: ' ' :: ' ' :: ·) (ih trivial)
  | case10 first rest noClose ih =>
    have goesOn : ¬ CommentKind.tag.closing <+: first :: rest := by
      rintro ⟨tail, ⟨⟩⟩
      exact noClose tail rfl rfl
    exact apart.maskFrom_inside_append (Or.inr rfl) goesOn (ih trivial)
  | case11 first =>
    have single : (c :: back).head? ≠ some first := by
      simpa using apart.ne_quote quoted
    rw [List.singleton_append, maskFrom_close_literal (ne_newline_of_isQuote quoted) single,
      Region.after, if_pos (Or.inr rfl), List.singleton_append]
  | case12 quote first other =>
    by_cases newline : first = '\n'
    · rw [newline, List.singleton_append, maskFrom_cut_literal, Region.after, if_pos (Or.inl rfl)]
      rfl
    · rw [List.singleton_append, maskFrom_inside_literal newline other, Region.after,
        if_neg (not_or.mpr ⟨newline, other⟩)]
  | case13 quote next rest ih =>
    rw [List.cons_append, maskFrom_cut_literal, Region.after, if_pos rfl, ih trivial,
      List.cons_append]
  | case14 quote rest sameLine ih =>
    rw [List.cons_append, List.cons_append, maskFrom, if_neg sameLine, if_pos rfl, if_pos rfl,
      ih quoted, Region.after, if_neg sameLine, if_pos rfl, if_pos rfl]
    simp only [List.append_assoc]
  | case15 quote next rest sameLine differs ih =>
    have single : (next :: rest ++ c :: back).head? ≠ some quote := by simpa using differs
    rw [List.cons_append, maskFrom_close_literal sameLine single, Region.after, if_neg sameLine,
      if_pos rfl, if_neg differs, ih trivial, List.cons_append]
  | case16 quote first next rest sameLine other ih =>
    rw [List.cons_append, maskFrom_inside_literal sameLine other, ih quoted, Region.after,
      if_neg sameLine, if_neg other, List.append_assoc]

/-- Code is no literal, so that it needs no quote. -/
theorem Region.isQuoted_code : Region.code.IsQuoted := trivial

/-- A text leaves a literal only for code and enters one only at a quote. -/
theorem Region.isQuoted_after (quoted : region.IsQuoted) : (region.after front).IsQuoted := by
  fun_induction Region.after region front with
  | case1 => exact quoted
  | case5 first rest _ _ _ ih => exact ih (Region.isQuoted_afterCode first)
  | case6 first rest ih =>
    refine ih ?_
    split_ifs <;> trivial
  | case11 => trivial
  | case12 => exact quoted
  | case14 _ _ _ ih | case16 _ _ _ _ _ _ ih => exact ih quoted
  | case2 _ ih | case3 _ ih | case4 _ ih | case7 _ ih | case9 _ ih => exact ih trivial
  | case8 _ _ _ ih | case10 _ _ _ ih => exact ih trivial
  | case13 _ _ _ ih | case15 _ _ _ _ _ ih => exact ih trivial

/-- A character that the closing delimiter does not have does not close a comment. -/
theorem not_closing {kind : CommentKind} (kinds : kind = .block ∨ kind = .tag)
    (missing : c ∉ kind.closing) (back : List Char) : ¬ kind.closing <+: c :: back := by
  intro closes
  have nothing := @prefix_of_not_mem c [] _ _ closes missing
  exact closing_ne_nil kinds (List.prefix_nil.mp nothing)

/-- Characters that the closing delimiter does not have are blanked out in a comment. -/
theorem maskFrom_inside_append {kind : CommentKind} (kinds : kind = .block ∨ kind = .tag)
    (missing : ∀ c ∈ front, c ∉ kind.closing) (rest : List Char) :
    maskFrom (regionOf kind) (front ++ rest) = blanks front ++ maskFrom (regionOf kind) rest := by
  induction front with
  | nil => rfl
  | cons c front ih =>
    obtain ⟨first, others⟩ := List.forall_mem_cons.mp missing
    rw [List.cons_append, maskFrom_inside kinds (not_closing kinds first _), ih others, blanks_cons,
      List.append_assoc]

/-- Outside of code, a character that is part of no delimiter is blanked out. -/
theorem IsApart.blanked_of_ne_code (apart : IsApart c) (sameLine : c ≠ '\n')
    (quoted : region.IsQuoted) (hides : region ≠ .code) (back : List Char) :
    ∃ later, maskFrom region (c :: back) = blanked c ++ later := by
  cases region with
  | code => contradiction
  | lineComment => exact ⟨_, by rw [maskFrom]⟩
  | blockComment =>
    have goesOn := not_closing (Or.inl rfl) (apart.not_mem_delimiter .block).2 back
    exact ⟨_, maskFrom_inside (Or.inl rfl) goesOn⟩
  | tagComment =>
    have goesOn := not_closing (Or.inr rfl) (apart.not_mem_delimiter .tag).2 back
    exact ⟨_, maskFrom_inside (Or.inr rfl) goesOn⟩
  | literal quote => exact ⟨_, maskFrom_inside_literal sameLine (apart.ne_quote quoted) back⟩

/-- Where a mask shows a character that is part of no delimiter, the source is cut in two: its parts
are masked each on its own. -/
theorem exists_cut_of_mask {text rest : List Char} {offset : Nat} (apart : IsApart c)
    (sameLine : c ≠ '\n') (noSpace : c ≠ ' ') (reads : ReadsAt (mask text) offset (c :: rest)) :
    ∃ front back, text = front ++ c :: back ∧ byteLength front = offset ∧
      mask text = mask front ++ c :: mask back ∧ rest = mask back := by
  obtain ⟨back, front, rfl, rfl⟩ := (covers_maskFrom .code text).readsAt reads noSpace
  have whole : mask (front ++ c :: back) =
      mask front ++ maskFrom (Region.code.after front) (c :: back) :=
    maskFrom_append apart Region.isQuoted_code back
  have same : c :: rest = maskFrom (Region.code.after front) (c :: back) := by
    have size : byteLength (mask front) = byteLength front := (covers_maskFrom _ _).byteLength_eq
    exact reads.unique (size ▸ ⟨mask front, whole, rfl⟩)
  have code : Region.code.after front = .code := by
    by_contra hides
    obtain ⟨later, blank⟩ :=
      apart.blanked_of_ne_code sameLine (Region.isQuoted_after Region.isQuoted_code) hides back
    obtain ⟨before, wide⟩ := Nat.exists_eq_succ_of_ne_zero c.utf8Size_pos.ne'
    rw [← same, blanked, if_neg sameLine, wide, List.replicate_succ, List.cons_append] at blank
    exact noSpace (List.cons.inj blank).1
  rw [code, apart.maskFrom_code] at same whole
  exact ⟨front, back, rfl, rfl, whole, (List.cons.inj same).2⟩

end Cuts

section Lines

/-- The region that a line starts in when the line before it ends in a region: only block comments
and comments in markup run over line ends. -/
def Region.nextLine : Region → Region
  | .blockComment => .blockComment
  | .tagComment => .tagComment
  | .code | .lineComment | .literal _ => .code

/-- The region that a line starts in is no literal. -/
theorem Region.isQuoted_nextLine (region : Region) : region.nextLine.IsQuoted := by
  cases region <;> trivial

/-- A line of a text that is masked. -/
structure MaskedLine where
  /-- The region that the line starts in. -/
  region : Region
  /-- The line as it stands in the text. -/
  text : List Char

/-- The line as it stands in the mask. -/
def MaskedLine.shown (line : MaskedLine) : List Char := maskFrom line.region line.text

/-- Lines, each with the region that it starts in when the first one starts in a region. -/
def linesFrom : Region → List (List Char) → List MaskedLine
  | _, [] => []
  | region, line :: rest => ⟨region, line⟩ :: linesFrom (region.after line).nextLine rest

variable {region : Region} {lines : List (List Char)}

/-- The lines of a text are its lines with their regions. -/
theorem map_text_linesFrom : (linesFrom region lines).map MaskedLine.text = lines := by
  induction lines generalizing region with
  | nil => rfl
  | cons line rest ih => rw [linesFrom, List.map_cons, ih]

/-- Lines start in code or in a comment that runs over line ends. -/
theorem region_of_mem_linesFrom {line : MaskedLine} (listed : line ∈ linesFrom region lines)
    (starts : region ∈ [Region.code, .blockComment, .tagComment]) :
    line.region ∈ [Region.code, .blockComment, .tagComment] := by
  induction lines generalizing region with
  | nil => contradiction
  | cons first rest ih =>
    rcases List.mem_cons.mp listed with rfl | later
    · exact starts
    · refine ih later ?_
      cases region.after first <;> simp [Region.nextLine]

/-- Masking goes on behind a newline in the next region. -/
theorem maskFrom_lineEnd (region : Region) (rest : List Char) :
    maskFrom region ('\n' :: rest) = '\n' :: maskFrom region.nextLine rest := by
  cases region with
  | code => exact IsApart.maskFrom_code (by decide) rest
  | literal quote => exact maskFrom_cut_literal quote rest
  | lineComment => rfl
  | blockComment => exact maskFrom_inside (Or.inl rfl) (not_closing (Or.inl rfl) (by decide) rest)
  | tagComment => exact maskFrom_inside (Or.inr rfl) (not_closing (Or.inr rfl) (by decide) rest)

/-- Joined lines are masked line by line. -/
theorem splitOn_maskFrom_joinWith (quoted : region.IsQuoted) (filled : lines ≠ [])
    (each : ∀ line ∈ lines, '\n' ∉ line) :
    splitOn '\n' (maskFrom region (joinWith ['\n'] lines)) =
      (linesFrom region lines).map MaskedLine.shown := by
  induction lines generalizing region with
  | nil => contradiction
  | cons line rest ih =>
    obtain ⟨first, others⟩ := List.forall_mem_cons.mp each
    have uncut : splitOn '\n' (maskFrom region line) = [maskFrom region line] := by
      refine splitBy_of_uncut fun c inside => beq_eq_false_iff_ne.mpr ?_
      rintro rfl
      exact first ((covers_maskFrom region line).mem inside (by decide))
    cases rest with
    | nil => exact uncut
    | cons next more =>
      have split : joinWith ['\n'] (line :: next :: more) =
          line ++ '\n' :: joinWith ['\n'] (next :: more) := by simp [joinWith]
      have apart : IsApart '\n' := by decide
      rw [split, maskFrom_append apart quoted, maskFrom_lineEnd, splitOn_append, uncut,
        ih (Region.isQuoted_nextLine _) (List.cons_ne_nil _ _) others, linesFrom, List.map_cons,
        List.singleton_append]
      rfl

/-- The lines of a mask are the lines of the source, each masked from the region it starts in. -/
theorem splitOn_maskFrom (quoted : region.IsQuoted) (text : List Char) :
    splitOn '\n' (maskFrom region text) =
      (linesFrom region (splitOn '\n' text)).map MaskedLine.shown := by
  have whole := joinWith_splitOn '\n' text
  have each : ∀ line ∈ splitOn '\n' text, '\n' ∉ line := fun line listed inside =>
    absurd (of_mem_splitBy listed '\n' inside).2 (by decide)
  have lines := splitOn_maskFrom_joinWith quoted (splitBy_ne_nil _ text) each
  rwa [← splitOn, whole] at lines

end Lines

end CfmlTidy.Source
