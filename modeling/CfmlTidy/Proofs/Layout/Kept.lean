import Mathlib
import CfmlTidy.Proofs.Layout.Content
import CfmlTidy.Proofs.Layout.FixedPoint

/-!
# Lines that formatting keeps

Formatting is told by its lines: take the lines of a text with their line ends unified, their tabs
expanded and the spaces at their ends removed. The lines of the formatted text that are not empty
are the ones of these that are not empty, in the same order, and where empty lines stood before one
of them, one empty line still does. Nothing is lost between the characters of a text and these lines
but blanks, so the formatted text has the same characters besides.
-/

namespace CfmlTidy.Layout

open CfmlTidy.Text

/-- Every carriage return with a newline behind it as that newline alone. -/
def joinPairs : List Char → List Char
  | [] => []
  | '\r' :: '\n' :: rest => '\n' :: joinPairs rest
  | c :: rest => c :: joinPairs rest

/-- The lines of a text, once every pair of a carriage return and a newline and then every carriage
return left alone is a newline, with their tabs expanded and the spaces at their ends removed. -/
def tidyLines (indent : Nat) (text : List Char) : List (List Char) :=
  (((joinPairs text).map fun c => if c = '\r' then '\n' else c).splitOn '\n').map fun line =>
    (line.flatMap fun c =>
      if c = '\t' then List.replicate (max indent 1) ' ' else [c]).rdropWhile (· == ' ')

/-- The number of empty lines before each line that is not empty, and at the end. -/
def gaps (lines : List (List Char)) : List Nat :=
  (lines.splitOnP fun line => !line.isEmpty).map List.length

/-- The number of empty lines right before each line that is not empty. -/
def spacing (lines : List (List Char)) : List Nat := (gaps lines).dropLast

variable {indent : Nat} {text line : List Char} {lines rest : List (List Char)}

section Lines

/-- One pass unifies line ends as two do. -/
theorem unifyEnds_eq (text : List Char) :
    unifyEnds text = (joinPairs text).map fun c => if c = '\r' then '\n' else c := by
  fun_induction unifyEnds text with
  | case1 => rfl
  | case2 rest ih => rw [joinPairs, List.map_cons, ih]; rfl
  | case3 c rest alone ih => rw [joinPairs, List.map_cons, ih]; exact alone

/-- Formatting starts from the lines with tabs expanded and spaces at their ends removed. -/
theorem cleanLines_eq (indent : Nat) (text : List Char) :
    cleanLines indent text = tidyLines indent text := by
  rw [cleanLines, splitOn_eq, unifyEnds_eq]
  rfl

end Lines

section Gaps

/-- An empty line makes the first gap longer. -/
theorem gaps_cons_empty : gaps ([] :: rest) = (gaps rest).modifyHead (· + 1) := by
  rw [gaps, List.splitOnP_cons_eq_if_modifyHead, gaps]
  cases rest.splitOnP fun line => !line.isEmpty <;> rfl

/-- A line that is not empty ends the first gap. -/
theorem gaps_cons_filled (filled : line ≠ []) : gaps (line :: rest) = 0 :: gaps rest := by
  have counts : (!line.isEmpty) = true := by simpa using filled
  rw [gaps, List.splitOnP_cons_eq_if_modifyHead, if_pos counts]
  rfl

/-- There is a gap in front of the first line, even if it has no length. -/
theorem gaps_ne_nil (lines : List (List Char)) : gaps lines ≠ [] := by
  rw [gaps, ne_eq, List.map_eq_nil_iff]
  exact List.splitOnP_ne_nil _ lines

/-- Where no empty line comes first, there is no gap. -/
theorem gaps_of_head? (first : ¬ lines.head?.any List.isEmpty = true) :
    ∃ others, gaps lines = 0 :: others := by
  cases lines with
  | nil => exact ⟨[], rfl⟩
  | cons line rest =>
    have filled : line ≠ [] := by simpa using first
    exact ⟨gaps rest, gaps_cons_filled filled⟩

/-- Collapsing leaves one empty line of every gap. Where a line is dropped, it and the next one are
empty, so the gap was wider than one. -/
theorem gaps_collapse (lines : List (List Char)) :
    gaps (collapse lines) = (gaps lines).map (min 1) := by
  fun_induction collapse lines with
  | case1 => rfl
  | case2 line rest dropped ih =>
    cases rest with
    | nil => simp at dropped
    | cons next others =>
      simp only [List.head?_cons, Option.any_some, Bool.and_eq_true, List.isEmpty_iff] at dropped
      obtain ⟨rfl, rfl⟩ := dropped
      have wider : gaps ([] :: [] :: others) = (gaps ([] :: others)).modifyHead (· + 1) :=
        gaps_cons_empty
      rw [ih, wider, gaps_cons_empty]
      cases gaps others <;> simp
  | case3 line rest kept ih =>
    by_cases filled : line = []
    · subst filled
      have first : ¬ rest.head?.any List.isEmpty = true := by simpa using kept
      obtain ⟨others, whole⟩ := gaps_of_head? first
      rw [gaps_cons_empty, gaps_cons_empty, ih, whole]
      rfl
    · rw [gaps_cons_filled filled, gaps_cons_filled filled, ih]
      rfl

/-- Empty lines at the end stand before no line. -/
theorem spacing_append {back : List (List Char)} (empty : ∀ line ∈ back, line = [])
    (front : List (List Char)) : spacing (front ++ back) = spacing front := by
  unfold spacing
  induction front with
  | nil =>
    have alone : ∀ line ∈ back, (!line.isEmpty) = false := by
      intro line listed
      rw [empty line listed]
      rfl
    rw [List.nil_append, gaps, List.splitOnP_eq_singleton alone]
    rfl
  | cons line rest ih =>
    by_cases filled : line = []
    · rw [filled, List.cons_append, gaps_cons_empty, gaps_cons_empty, ← List.modifyHead_dropLast,
        ← List.modifyHead_dropLast, ih]
    · rw [List.cons_append, gaps_cons_filled filled, gaps_cons_filled filled,
        List.dropLast_cons_of_ne_nil (gaps_ne_nil _), List.dropLast_cons_of_ne_nil (gaps_ne_nil _),
        ih]

/-- The lines without the empty ones at the end, and these. -/
theorem exists_append_dropTrailingEmpty (lines : List (List Char)) :
    ∃ back, lines = dropTrailingEmpty lines ++ back ∧ ∀ line ∈ back, line = [] := by
  refine ⟨lines.rtakeWhile List.isEmpty, ?_, fun line listed => ?_⟩
  · rw [dropTrailingEmpty_eq, List.rdropWhile_append_rtakeWhile]
  · exact List.isEmpty_iff.mp (List.mem_rtakeWhile_imp listed)

/-- Collapsing empty lines leaves the lines that are not empty. -/
theorem filter_collapse (lines : List (List Char)) :
    (collapse lines).filter (!·.isEmpty) = lines.filter (!·.isEmpty) := by
  fun_induction collapse lines with
  | case1 => rfl
  | case2 line rest dropped ih =>
    rw [Bool.and_eq_true] at dropped
    rw [ih, List.filter_cons_of_neg (by simp [dropped.1])]
  | case3 line rest _ ih => rw [List.filter_cons, List.filter_cons, ih]

/-- The lines that are put together when a text is formatted: those of the text that are not empty,
with at most one empty line before each. -/
theorem kept_lines (lines : List (List Char)) :
    (dropTrailingEmpty (collapse lines)).filter (!·.isEmpty) = lines.filter (!·.isEmpty) ∧
      spacing (dropTrailingEmpty (collapse lines)) = (spacing lines).map (min 1) := by
  obtain ⟨back, whole, empty⟩ := exists_append_dropTrailingEmpty (collapse lines)
  constructor
  · have nothing : back.filter (!·.isEmpty) = [] := by
      rw [List.filter_eq_nil_iff]
      intro line listed
      simp [empty line listed]
    rw [← filter_collapse lines]
    conv_rhs => rw [whole, List.filter_append, nothing, List.append_nil]
  · calc spacing (dropTrailingEmpty (collapse lines))
        = spacing (collapse lines) := by
          conv_rhs => rw [whole, spacing_append empty]
      _ = (spacing lines).map (min 1) := by
          rw [spacing, gaps_collapse, ← List.map_dropLast, spacing]

end Gaps

section Characters

/-- Joined lines have the solid characters of the lines. -/
theorem filter_unlines (lines : List (List Char)) :
    (unlines lines).filter isSolid = lines.flatMap (·.filter isSolid) := by
  rw [unlines, List.filter_flatMap]
  simp only [List.filter_append]
  congr 1
  funext line
  exact List.append_nil _

/-- Empty lines have no characters. -/
theorem flatMap_filter_filled (lines : List (List Char)) :
    (lines.filter (!·.isEmpty)).flatMap (·.filter isSolid) = lines.flatMap (·.filter isSolid) := by
  induction lines with
  | nil => rfl
  | cons line rest ih =>
    by_cases filled : line = []
    · rw [filled, List.filter_cons_of_neg (by simp), ih]
      rfl
    · rw [List.filter_cons_of_pos (by simpa using filled), List.flatMap_cons, List.flatMap_cons, ih]

/-- Unifying line ends leaves the solid characters. -/
theorem filter_unifyEnds (text : List Char) :
    (unifyEnds text).filter isSolid = text.filter isSolid := by
  fun_induction unifyEnds text with
  | case1 => rfl
  | case2 rest ih => exact ih
  | case3 c rest _ ih =>
    by_cases carriage : c = '\r'
    · rw [if_pos carriage, carriage]
      exact ih
    · rw [if_neg carriage, List.filter_cons, List.filter_cons, ih]

/-- Expanding tabs leaves the solid characters. -/
theorem filter_expandTabs (width : Nat) (line : List Char) :
    (expandTabs width line).filter isSolid = line.filter isSolid := by
  induction line with
  | nil => rfl
  | cons c rest ih =>
    unfold expandTabs at ih ⊢
    rw [List.flatMap_cons, List.filter_append, ih]
    by_cases tab : c = '\t'
    · rw [if_pos tab, tab, List.filter_replicate_of_neg (by decide)]
      rfl
    · rw [if_neg tab, List.filter_cons, List.filter_cons]
      split_ifs <;> rfl

/-- Cleaning a line leaves its solid characters. -/
theorem filter_cleanLine (indent : Nat) (line : List Char) :
    (cleanLine indent line).filter isSolid = line.filter isSolid := by
  have nothing : ((expandTabs (max indent 1) line).rtakeWhile (· == ' ')).filter isSolid = [] := by
    rw [List.filter_eq_nil_iff]
    intro c listed
    have space := List.mem_rtakeWhile_imp listed
    rw [beq_iff_eq.mp space]
    decide
  calc (cleanLine indent line).filter isSolid
      = ((expandTabs (max indent 1) line).rdropWhile (· == ' ') ++
          (expandTabs (max indent 1) line).rtakeWhile (· == ' ')).filter isSolid := by
        rw [List.filter_append, nothing, List.append_nil, cleanLine, dropEndWhile_eq]
    _ = line.filter isSolid := by
        rw [List.rdropWhile_append_rtakeWhile, filter_expandTabs]

/-- The lines that formatting starts from have the solid characters of the text. -/
theorem flatMap_filter_cleanLines (indent : Nat) (text : List Char) :
    (cleanLines indent text).flatMap (·.filter isSolid) = text.filter isSolid := by
  calc (cleanLines indent text).flatMap (·.filter isSolid)
      = (splitOn '\n' (unifyEnds text)).flatMap (·.filter isSolid) := by
        rw [cleanLines, List.flatMap_map]
        simp only [filter_cleanLine]
    _ = (unifyEnds text ++ ['\n']).filter isSolid := by
        rw [← filter_unlines, unlines_splitOn]
    _ = text.filter isSolid := by
        rw [List.filter_append, filter_unifyEnds]
        exact List.append_nil _

/-- A visible character is solid. -/
theorem isSolid_of_visible {c : Char} (visible : isBlank c = false) : isSolid c = true := by
  have apart : ∀ other, isBlank other = true → c ≠ other := by
    rintro other blank rfl
    rw [visible] at blank
    contradiction
  simp only [isSolid, Bool.and_eq_true, bne_iff_ne]
  exact ⟨⟨⟨apart ' ' rfl, apart '\t' rfl⟩, apart '\r' rfl⟩, apart '\n' rfl⟩

/-- A text has a character that is not blank exactly when one of its lines has. -/
theorem visible_cleanLines_iff (indent : Nat) (text : List Char) :
    (∃ line ∈ cleanLines indent text, ∃ c ∈ line, isBlank c = false) ↔
      ∃ c ∈ text, isBlank c = false := by
  constructor
  · rintro ⟨line, listed, c, inside, visible⟩
    have solid := isSolid_of_visible visible
    have among : c ∈ (cleanLines indent text).flatMap (·.filter isSolid) :=
      List.mem_flatMap.mpr ⟨line, listed, List.mem_filter.mpr ⟨inside, solid⟩⟩
    rw [flatMap_filter_cleanLines] at among
    exact ⟨c, (List.mem_filter.mp among).1, visible⟩
  · rintro ⟨c, inside, visible⟩
    have among : c ∈ text.filter isSolid :=
      List.mem_filter.mpr ⟨inside, isSolid_of_visible visible⟩
    rw [← flatMap_filter_cleanLines indent] at among
    obtain ⟨line, listed, within⟩ := List.mem_flatMap.mp among
    exact ⟨line, listed, c, (List.mem_filter.mp within).1, visible⟩

end Characters

/-- The lines that are put together have a character that is not blank exactly when the lines that
formatting starts from have one. A line with such a character is not empty, and the lines that are
not empty stay. -/
theorem visible_kept_iff (lines : List (List Char)) :
    (∃ line ∈ dropTrailingEmpty (collapse lines), ∃ c ∈ line, isBlank c = false) ↔
      ∃ line ∈ lines, ∃ c ∈ line, isBlank c = false := by
  have filled (lines : List (List Char)) : (∃ line ∈ lines, ∃ c ∈ line, isBlank c = false) ↔
      ∃ line ∈ lines.filter (!·.isEmpty), ∃ c ∈ line, isBlank c = false := by
    constructor
    · rintro ⟨line, listed, c, inside, visible⟩
      have counts : (!line.isEmpty) = true := by simpa using List.ne_nil_of_mem inside
      exact ⟨line, List.mem_filter.mpr ⟨listed, counts⟩, c, inside, visible⟩
    · rintro ⟨line, listed, c, inside, visible⟩
      exact ⟨line, (List.mem_filter.mp listed).1, c, inside, visible⟩
  rw [filled, (kept_lines lines).1, ← filled]

/-- A text with a character that is not blank is formatted to settled lines. -/
theorem format_of_visible
    (visible : ∃ line ∈ cleanLines indent text, ∃ c ∈ line, isBlank c = false) :
    Settled (dropTrailingEmpty (collapse (cleanLines indent text))) ∧
      format indent text = unlines (dropTrailingEmpty (collapse (cleanLines indent text))) := by
  have content := all_allBlank_eq_false_iff.mpr ((visible_kept_iff _).mpr visible)
  refine ⟨settled_of_content content, ?_⟩
  simp only [format, content, Bool.false_eq_true, if_false]

/-- A text without a character that is not blank is formatted to nothing. -/
theorem format_of_not_visible
    (blank : ¬ ∃ line ∈ cleanLines indent text, ∃ c ∈ line, isBlank c = false) :
    format indent text = [] := by
  rw [← visible_kept_iff, ← all_allBlank_eq_false_iff, Bool.not_eq_false] at blank
  simp only [format, blank, if_true]

/-- Formatting keeps what can be read. Of a text with a character that is not blank, the lines that
are not empty are the lines of the formatted text that are not empty, in order, and before each of
them stands one empty line where there were some and none where there was none; the characters
besides spaces, tabs, carriage returns and newlines are the same. Of any other text nothing is
kept. -/
theorem format_keeps (indent : Nat) (text : List Char) :
    ((∃ line ∈ tidyLines indent text, ∃ c ∈ line, isBlank c = false) →
      ((format indent text).splitOn '\n').filter (!·.isEmpty) =
          (tidyLines indent text).filter (!·.isEmpty) ∧
        spacing ((format indent text).splitOn '\n') =
          (spacing (tidyLines indent text)).map (min 1)) ∧
      ((¬ ∃ line ∈ tidyLines indent text, ∃ c ∈ line, isBlank c = false) →
        format indent text = []) ∧
      ((∃ c ∈ text, isBlank c = false) →
        (format indent text).filter isSolid = text.filter isSolid) := by
  rw [← cleanLines_eq]
  obtain ⟨kept, narrowed⟩ := kept_lines (cleanLines indent text)
  refine ⟨fun visible => ?_, format_of_not_visible, fun visible => ?_⟩
  · obtain ⟨settled, whole⟩ := format_of_visible visible
    have split : (format indent text).splitOn '\n' =
        dropTrailingEmpty (collapse (cleanLines indent text)) ++ [[]] := by
      rw [whole, ← splitOn_eq, splitOn_unlines settled.clean]
    rw [split]
    constructor
    · rw [List.filter_append, kept]
      exact List.append_nil _
    · rw [spacing_append (by simp), narrowed]
  · obtain ⟨-, whole⟩ := format_of_visible ((visible_cleanLines_iff indent text).mpr visible)
    rw [whole, filter_unlines, ← flatMap_filter_filled, kept, flatMap_filter_filled,
      flatMap_filter_cleanLines]

/-- Two lines with all kinds of line ends before, between and after them. -/
def gapped : List Char :=
  ['\r', '\n', '\r', '\t', '\r', 'a', ' ', '\r', '\r', '\n', ' ', '\n', '\u00a0', '\t', 'b', '\r']

/-- Of three empty lines before the first line and two before the second, one each is kept. -/
theorem format_keeps_gapped :
    spacing (tidyLines 2 gapped) = [3, 2] ∧
      spacing ((format 2 gapped).splitOn '\n') = [1, 1] ∧
      ((format 2 gapped).splitOn '\n').filter (!·.isEmpty) =
        [['a'], ['\u00a0', ' ', ' ', 'b']] ∧
      (format 2 gapped).filter isSolid = ['a', '\u00a0', 'b'] := by
  obtain ⟨lines, -, characters⟩ := format_keeps 2 gapped
  have spaced : spacing (tidyLines 2 gapped) = [3, 2] := by decide +kernel
  have filled : (tidyLines 2 gapped).filter (!·.isEmpty) = [['a'], ['\u00a0', ' ', ' ', 'b']] := by
    decide +kernel
  obtain ⟨kept, narrowed⟩ := lines ⟨['a'], by decide +kernel, 'a', by decide, by decide⟩
  exact ⟨spaced, by rw [narrowed, spaced]; rfl, kept.trans filled,
    characters ⟨'a', by decide, by decide⟩⟩

end CfmlTidy.Layout
