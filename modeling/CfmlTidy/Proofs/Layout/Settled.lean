import Mathlib
import CfmlTidy.Layout
import CfmlTidy.Proofs.Text.Lines

/-!
# Texts in layout

The texts that formatting leaves alone are the empty text and the texts made of settled lines:
clean lines, no two empty ones in a row, none at the end, and something to read in one of them.
Formatting always produces such a text, and so formatting again changes nothing.
-/

namespace CfmlTidy.Layout

open CfmlTidy.Text

/-- A line without line ends, tabs and trailing spaces. -/
structure Clean (line : List Char) : Prop where
  /-- No newline. -/
  newline : '\n' ∉ line
  /-- No carriage return. -/
  carriage : '\r' ∉ line
  /-- No tab. -/
  tab : '\t' ∉ line
  /-- No space at the end. -/
  ending : ∀ filled : line ≠ [], line.getLast filled ≠ ' '

/-- No two empty lines in a row. -/
abbrev Sparse (lines : List (List Char)) : Prop :=
  lines.IsChain fun line next => line ≠ [] ∨ next ≠ []

/-- The lines of a text in layout. -/
structure Settled (lines : List (List Char)) : Prop where
  /-- Every line is clean. -/
  clean : ∀ line ∈ lines, Clean line
  /-- Empty lines stand alone. -/
  sparse : Sparse lines
  /-- The last line is not empty. -/
  ended : ∀ filled : lines ≠ [], lines.getLast filled ≠ []
  /-- Some line has more than blanks. -/
  content : lines.all allBlank = false

/-- No carriage return is left among unified line ends. -/
theorem return_not_mem_unifyEnds (text : List Char) : '\r' ∉ unifyEnds text := by
  fun_induction unifyEnds text with
  | case1 => simp
  | case2 rest ih => simpa using ih
  | case3 c rest _ ih =>
    rw [List.mem_cons, not_or]
    refine ⟨?_, ih⟩
    split_ifs with carriage
    · decide
    · exact Ne.symm carriage

/-- A text without carriage returns has its line ends unified. -/
theorem unifyEnds_of_not_mem {text : List Char} (absent : '\r' ∉ text) : unifyEnds text = text := by
  fun_induction unifyEnds text with
  | case1 => rfl
  | case2 => simp at absent
  | case3 c rest _ ih =>
    rw [List.mem_cons, not_or] at absent
    rw [if_neg (Ne.symm absent.1), ih absent.2]

/-- A line without tabs has them expanded. -/
theorem expandTabs_of_not_mem {line : List Char} (width : Nat) (absent : '\t' ∉ line) :
    expandTabs width line = line := by
  induction line with
  | nil => rfl
  | cons c rest ih =>
    rw [List.mem_cons, not_or] at absent
    unfold expandTabs at ih ⊢
    rw [List.flatMap_cons, if_neg (Ne.symm absent.1), ih absent.2]
    rfl

/-- An expanded line has the characters of the line but tabs, and spaces. -/
theorem of_mem_expandTabs {width : Nat} {line : List Char} {c : Char}
    (inside : c ∈ expandTabs width line) : c ∈ line ∧ c ≠ '\t' ∨ c = ' ' := by
  obtain ⟨other, listed, within⟩ := List.mem_flatMap.mp inside
  split_ifs at within with tab
  · exact Or.inr (List.eq_of_mem_replicate within)
  · rw [List.mem_singleton] at within
    subst within
    exact Or.inl ⟨listed, tab⟩

/-- A cleaned line has the characters of the line but tabs, and spaces. -/
theorem of_mem_cleanLine {indent : Nat} {line : List Char} {c : Char}
    (inside : c ∈ cleanLine indent line) : c ∈ line ∧ c ≠ '\t' ∨ c = ' ' := by
  rw [cleanLine, dropEndWhile_eq] at inside
  exact of_mem_expandTabs ((List.rdropWhile_prefix _ _).subset inside)

/-- A line without line ends is clean once it is cleaned. -/
theorem clean_cleanLine (indent : Nat) {line : List Char} (newline : '\n' ∉ line)
    (carriage : '\r' ∉ line) : Clean (cleanLine indent line) where
  newline inside := by
    rcases of_mem_cleanLine inside with ⟨listed, _⟩ | space
    · exact newline listed
    · contradiction
  carriage inside := by
    rcases of_mem_cleanLine inside with ⟨listed, _⟩ | space
    · exact carriage listed
    · contradiction
  tab inside := by
    rcases of_mem_cleanLine inside with ⟨_, other⟩ | space
    · exact other rfl
    · contradiction
  ending filled last := by
    have stays := List.rdropWhile_last_not (· == ' ') _ filled
    exact stays (beq_iff_eq.mpr last)

/-- Cleaning leaves a clean line alone. -/
theorem cleanLine_of_clean (indent : Nat) {line : List Char} (clean : Clean line) :
    cleanLine indent line = line := by
  rw [cleanLine, expandTabs_of_not_mem _ clean.tab, dropEndWhile_eq, List.rdropWhile_eq_self_iff]
  intro filled last
  exact clean.ending filled (beq_iff_eq.mp last)

/-- Every line of a text is clean once it is cleaned. -/
theorem clean_of_mem_cleanLines {indent : Nat} {text line : List Char}
    (listed : line ∈ cleanLines indent text) : Clean line := by
  obtain ⟨piece, split, rfl⟩ := List.mem_map.mp listed
  apply clean_cleanLine
  · intro inside
    have kept := (of_mem_splitBy split '\n' inside).2
    exact absurd kept (by decide)
  · intro inside
    exact return_not_mem_unifyEnds text (of_mem_splitBy split '\r' inside).1

/-- Collapsing keeps the first line. A line is only dropped in front of an empty one, and it is
empty itself. -/
theorem head?_collapse (lines : List (List Char)) : (collapse lines).head? = lines.head? := by
  fun_induction collapse lines with
  | case1 => rfl
  | case2 line rest dropped ih =>
    cases rest with
    | nil => simp at dropped
    | cons next others =>
      rw [ih]
      simp only [List.head?_cons, Option.any_some, Bool.and_eq_true, List.isEmpty_iff] at dropped ⊢
      rw [dropped.1, dropped.2]
  | case3 line rest _ _ => rfl

/-- Collapsing only drops lines. -/
theorem collapse_sublist (lines : List (List Char)) : List.Sublist (collapse lines) lines := by
  fun_induction collapse lines with
  | case1 => exact List.Sublist.refl []
  | case2 line rest _ ih => exact ih.cons line
  | case3 line rest _ ih => exact ih.cons_cons line

/-- Collapsed lines have no two empty ones in a row. -/
theorem sparse_collapse (lines : List (List Char)) : Sparse (collapse lines) := by
  fun_induction collapse lines with
  | case1 => exact List.IsChain.nil
  | case2 line rest _ ih => exact ih
  | case3 line rest kept ih =>
    refine ih.cons fun next first => ?_
    rw [head?_collapse, Option.mem_def] at first
    rw [first] at kept
    by_contra both
    push Not at both
    exact kept (by rw [both.1, both.2]; rfl)

/-- Collapsing leaves lines alone that have no two empty ones in a row. -/
theorem collapse_of_sparse {lines : List (List Char)} (sparse : Sparse lines) :
    collapse lines = lines := by
  induction lines with
  | nil => rfl
  | cons line rest ih =>
    obtain ⟨apart, later⟩ := List.isChain_cons.mp sparse
    have kept : ¬ (line.isEmpty && rest.head?.any List.isEmpty) = true := by
      cases first : rest.head? with
      | none => simp
      | some next =>
        have either := apart next first
        simp only [Option.any_some, Bool.and_eq_true, List.isEmpty_iff]
        tauto
    rw [collapse, if_neg kept, ih later]

/-- Lines that are each followed by a newline split into the lines and an empty one. -/
theorem splitOn_unlines {lines : List (List Char)} (clean : ∀ line ∈ lines, Clean line) :
    splitOn '\n' (unlines lines) = lines ++ [[]] := by
  induction lines with
  | nil => rfl
  | cons line rest ih =>
    have kept : ∀ c ∈ line, (c == '\n') = false := by
      intro c inside
      rw [beq_eq_false_iff_ne]
      rintro rfl
      exact (clean line List.mem_cons_self).newline inside
    have tail := ih fun other listed => clean other (List.mem_cons_of_mem line listed)
    unfold unlines splitOn at tail ⊢
    rw [List.flatMap_cons, List.append_assoc, List.singleton_append,
      splitBy_append_cons kept (by decide), tail, List.cons_append]

/-- No carriage return stands in clean lines. -/
theorem return_not_mem_unlines {lines : List (List Char)} (clean : ∀ line ∈ lines, Clean line) :
    '\r' ∉ unlines lines := by
  intro inside
  obtain ⟨line, listed, within⟩ := List.mem_flatMap.mp inside
  rcases List.mem_append.mp within with early | late
  · exact (clean line listed).carriage early
  · simp at late

/-- Settled lines followed by an empty line have no two empty ones in a row. -/
theorem sparse_append_empty {lines : List (List Char)} (settled : Settled lines) :
    Sparse (lines ++ [[]]) := by
  refine List.isChain_append.mpr ⟨settled.sparse, List.isChain_singleton [], ?_⟩
  intro last listed next _
  obtain ⟨filled, rfl⟩ := List.mem_getLast?_eq_getLast listed
  exact Or.inl (settled.ended filled)

/-- The empty line after settled lines is all that is dropped at their end. -/
theorem dropTrailingEmpty_append_empty {lines : List (List Char)} (settled : Settled lines) :
    dropTrailingEmpty (lines ++ [[]]) = lines := by
  rw [dropTrailingEmpty_eq, List.rdropWhile_concat_pos _ _ _ rfl, List.rdropWhile_eq_self_iff]
  intro filled empty
  exact settled.ended filled (List.isEmpty_iff.mp empty)

/-- Formatting leaves a text of settled lines alone. -/
theorem format_unlines (indent : Nat) {lines : List (List Char)} (settled : Settled lines) :
    format indent (unlines lines) = unlines lines := by
  have same : lines.map (cleanLine indent) = lines := by
    conv_rhs => rw [← List.map_id lines]
    exact List.map_congr_left fun line listed =>
      cleanLine_of_clean indent (settled.clean line listed)
  have cleaned : cleanLines indent (unlines lines) = lines ++ [[]] := by
    rw [cleanLines, unifyEnds_of_not_mem (return_not_mem_unlines settled.clean),
      splitOn_unlines settled.clean, List.map_append, same]
    rfl
  rw [format]
  simp only [cleaned, collapse_of_sparse (sparse_append_empty settled),
    dropTrailingEmpty_append_empty settled, settled.content, Bool.false_eq_true, if_false]

/-- The lines that formatting puts together are settled when one of them has more than blanks. -/
theorem settled_of_content {indent : Nat} {text : List Char}
    (content : (dropTrailingEmpty (collapse (cleanLines indent text))).all allBlank = false) :
    Settled (dropTrailingEmpty (collapse (cleanLines indent text))) where
  clean line listed := by
    rw [dropTrailingEmpty_eq] at listed
    have collapsed := (List.rdropWhile_prefix _ _).subset listed
    exact clean_of_mem_cleanLines ((collapse_sublist _).subset collapsed)
  sparse := by
    rw [dropTrailingEmpty_eq]
    exact List.IsChain.infix (sparse_collapse _) (List.rdropWhile_prefix _ _).isInfix
  ended filled last := by
    have stays := List.rdropWhile_last_not List.isEmpty _ filled
    exact stays (List.isEmpty_iff.mpr last)
  content := content

/-- Formatting produces the empty text or a text of settled lines. -/
theorem format_settled (indent : Nat) (text : List Char) :
    format indent text = [] ∨ ∃ lines, Settled lines ∧ format indent text = unlines lines := by
  rw [format]
  by_cases blank : (dropTrailingEmpty (collapse (cleanLines indent text))).all allBlank = true
  · exact Or.inl (if_pos blank)
  · exact Or.inr ⟨_, settled_of_content (Bool.eq_false_iff.mpr blank), if_neg blank⟩

/-- Formatting leaves the empty text alone. -/
theorem format_nil (indent : Nat) : format indent [] = [] := by
  simp [format, cleanLines, unifyEnds, splitOn, splitBy, cleanLine, expandTabs, dropEndWhile,
    collapse, dropTrailingEmpty]

/-- Formatting a formatted text changes nothing. -/
theorem format_format (indent : Nat) (text : List Char) :
    format indent (format indent text) = format indent text := by
  rcases format_settled indent text with empty | ⟨lines, settled, whole⟩
  · rw [empty, format_nil]
  · rw [whole, format_unlines indent settled]

end CfmlTidy.Layout
