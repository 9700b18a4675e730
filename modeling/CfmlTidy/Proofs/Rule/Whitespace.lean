import Mathlib
import CfmlTidy.Proofs.Layout.Content
import CfmlTidy.Proofs.Snippet
import CfmlTidy.Rule.Whitespace

/-!
# Whitespace rules on formatted texts

Rules and formatting cut a text into lines, tell blank lines and find the end of a line each in its
own way. On a formatted text the two ways agree: the lines that rules see are the settled lines that
formatting has put together, and where a text has no blanks but spaces, tabs and line ends, the only
blank left in such a line is a space before its end. So there is nothing for the rules to report.
-/

namespace CfmlTidy

open Text

namespace Layout

variable {indent : Nat} {text line : List Char}

/-- The lines of a text in layout are those that it was put together from. -/
theorem splitLines_unlines {lines : List (List Char)} (settled : Settled lines) :
    splitLines (unlines lines) = lines := by
  have same : (lines ++ [[]]).map stripReturn = lines ++ [[]] := by
    conv_rhs => rw [← List.map_id (lines ++ [[]])]
    refine List.map_congr_left fun line listed => ?_
    rw [stripReturn, if_neg]
    · rfl
    · intro last
      rcases List.mem_append.mp listed with early | late
      · exact (settled.clean line early).carriage (List.mem_of_getLast? last)
      · rw [List.mem_singleton.mp late] at last
        contradiction
  rw [splitLines, splitOn_unlines settled.clean, same, dropTrailingEmpty_append_empty settled]

/-- The lines of a formatted text are clean, and no two empty ones stand in a row. -/
theorem splitLines_format (indent : Nat) (text : List Char) :
    (∀ line ∈ splitLines (format indent text), Clean line ∧
      ∀ c ∈ line, c ∈ format indent text) ∧
      Sparse (splitLines (format indent text)) := by
  rcases format_settled indent text with empty | ⟨lines, settled, whole⟩
  · have nothing : splitLines (format indent text) = [] := by
      rw [empty]
      rfl
    rw [nothing]
    exact ⟨by simp, List.IsChain.nil⟩
  · rw [whole, splitLines_unlines settled]
    refine ⟨fun line listed => ⟨settled.clean line listed, fun c inside => ?_⟩, settled.sparse⟩
    exact List.mem_flatMap.mpr ⟨line, listed, List.mem_append_left _ inside⟩

/-- A text whose only blanks are spaces, tabs and line ends. -/
def PlainBlanks (text : List Char) : Prop :=
  ∀ c ∈ text, isBlank c = true → c ∈ [' ', '\t', '\r', '\n']

/-- The only blank in a line of a formatted text is the space. -/
theorem eq_space_of_blank (plain : PlainBlanks text)
    (listed : line ∈ splitLines (format indent text)) {c : Char} (inside : c ∈ line)
    (blank : isBlank c = true) : c = ' ' := by
  obtain ⟨clean, kept⟩ := (splitLines_format indent text).1 line listed
  rcases of_mem_format (kept c inside) with original | space | newline
  · have known := plain c original blank
    simp only [List.mem_cons, List.not_mem_nil, or_false] at known
    rcases known with rfl | rfl | rfl | rfl
    · rfl
    · exact absurd inside clean.tab
    · exact absurd inside clean.carriage
    · exact absurd inside clean.newline
  · exact space
  · exact absurd (newline ▸ inside) clean.newline

/-- No line of a formatted text ends in a blank. -/
theorem endsBlank_format (plain : PlainBlanks text)
    (listed : line ∈ splitLines (format indent text)) : Rule.endsBlank line = false := by
  obtain ⟨clean, -⟩ := (splitLines_format indent text).1 line listed
  by_cases filled : line = []
  · rw [filled]
    rfl
  · have last : line.getLast? = some (line.getLast filled) := List.getLast?_eq_some_getLast filled
    rw [Rule.endsBlank, last]
    by_contra ends
    have blank : isBlank (line.getLast filled) = true := by simpa using ends
    have space := eq_space_of_blank plain listed (List.getLast_mem filled) blank
    exact clean.ending filled space

end Layout

namespace Rule

variable {lines : List (List Char)}

/-- A line of blanks ends in one, unless it is empty. -/
theorem endsBlank_of_allBlank {line : List Char} (filled : line ≠ [])
    (blank : allBlank line = true) : endsBlank line = true := by
  have last : line.getLast? = some (line.getLast filled) := List.getLast?_eq_some_getLast filled
  rw [endsBlank, last]
  exact List.all_eq_true.mp blank _ (List.getLast_mem filled)

/-- Nothing is reported of lines that end in no blank. -/
theorem trailingFindings_eq_nil (clean : ∀ line ∈ lines, endsBlank line = false) :
    trailingFindings lines = [] := by
  refine List.filterMap_eq_nil_iff.mpr fun entry listed => ?_
  obtain ⟨-, found⟩ := Snippet.of_mem_numbered listed
  rw [clean entry.2 (List.mem_of_getElem? found), if_neg Bool.false_ne_true]

/-- Nothing is reported of lines without two blank ones in a row, wherever counting starts: at most
one blank line is counted, and only in front of a line that is not blank. -/
theorem emptyFindings_eq_nil {limit : Nat} (allows : 1 ≤ limit)
    (alone : lines.IsChain fun line next => allBlank line = false ∨ allBlank next = false)
    {run : Nat} (counted : run = 0 ∨ run = 1 ∧ ∀ next ∈ lines.head?, allBlank next = false)
    (number : Nat) : emptyFindings limit number run lines = [] := by
  induction lines generalizing number run with
  | nil => rfl
  | cons line rest ih =>
    obtain ⟨apart, later⟩ := List.isChain_cons.mp alone
    rw [emptyFindings]
    by_cases blank : allBlank line = true
    · rw [if_pos blank]
      have first : run = 0 := by
        rcases counted with none | ⟨-, filled⟩
        · exact none
        · have other := filled line rfl
          rw [blank] at other
          contradiction
      refine ih later (Or.inr ⟨by omega, fun next follows => ?_⟩) (number + 1)
      rcases apart next follows with filled | filled
      · rw [blank] at filled
        contradiction
      · exact filled
    · have few : ¬ limit < run := by omega
      rw [if_neg blank, if_neg few, List.nil_append]
      exact ih later (Or.inl rfl) (number + 1)

/-- A rule that finds nothing comes to nothing. -/
theorem outcome_ofFindings {find : Subject → List Finding} {subject : Subject}
    (nothing : find subject = []) (id category description : String) :
    (ofFindings id category description find).outcome subject = [] := by
  simp only [outcome, ofFindings, nothing, List.map_nil]

/-- Formatting mends what the whitespace rules report: where a text has no blanks but spaces, tabs
and line ends, and a blank line is allowed at all, they report nothing of the formatted text. -/
theorem analyze_format_eq_nil (indent : Nat) {text : List Char}
    (plain : Layout.PlainBlanks text) {settings : Settings} (allows : 1 ≤ settings.maxEmptyLines)
    {parsed : Parsed} (formatted : parsed.content = Layout.format indent text) :
    analyze [trailingWhitespace, excessiveEmptyLines] (Subject.ofParsed parsed settings) = [] := by
  have clean : ∀ line ∈ splitLines parsed.content, endsBlank line = false := by
    intro line listed
    rw [formatted] at listed
    exact Layout.endsBlank_format plain listed
  have filled : ∀ line ∈ splitLines parsed.content, line ≠ [] → allBlank line = false := by
    intro line listed present
    by_contra blank
    have ends := endsBlank_of_allBlank present (Bool.eq_true_of_not_eq_false blank)
    rw [clean line listed] at ends
    contradiction
  have alone : (splitLines parsed.content).IsChain fun line next =>
      allBlank line = false ∨ allBlank next = false := by
    have sparse := (Layout.splitLines_format indent text).2
    rw [← formatted] at sparse
    refine List.IsChain.imp_of_mem_imp (fun line next listed follows apart => ?_) sparse
    exact apart.imp (filled line listed) (filled next follows)
  have trailing : trailingWhitespace.outcome (Subject.ofParsed parsed settings) = [] := by
    apply outcome_ofFindings
    split_ifs
    · exact trailingFindings_eq_nil clean
    · rfl
  have limit : 1 ≤ settings.maxEmptyLines.toNat := by omega
  have empty : excessiveEmptyLines.outcome (Subject.ofParsed parsed settings) = [] := by
    apply outcome_ofFindings
    exact emptyFindings_eq_nil limit alone (Or.inl rfl) 1
  rw [analyze, List.flatMap_cons, List.flatMap_cons, trailing, empty]
  rfl

/-- Two lines with blanks at their ends and two blank lines between them. -/
def loose : List Char := ['a', ' ', '\r', '\n', '\t', '\n', '\r', '\n', 'b', '\t']

/-- Settings that allow one blank line. -/
def strictLayout : Settings :=
  Settings.layered (.obj [("linting", .obj [("rules", .obj
    [("whitespace", .obj [("maxEmptyLines", .int 1)])])])]) "/work"

/-- The loose text is reported by both rules, and formatted by none. -/
theorem analyze_format_eq_nil_loose :
    ((analyze [trailingWhitespace, excessiveEmptyLines]
        (Subject.ofParsed (Parsed.ofContent "a.cfm" loose true) strictLayout)).map
          fun violation => (violation.ruleId, violation.line)) =
        [("TRAILING_WHITESPACE", 1), ("TRAILING_WHITESPACE", 2), ("TRAILING_WHITESPACE", 4),
          ("EXCESSIVE_EMPTY_LINES", 4)] ∧
      analyze [trailingWhitespace, excessiveEmptyLines]
        (Subject.ofParsed (Parsed.ofContent "a.cfm" (Layout.format 2 loose) true) strictLayout) =
          [] := by
  have plain : Layout.PlainBlanks loose := by
    simp [Layout.PlainBlanks, loose, isBlank]
  have allows : 1 ≤ strictLayout.maxEmptyLines := by decide +kernel
  exact ⟨by decide +kernel, analyze_format_eq_nil 2 plain allows rfl⟩

end Rule

end CfmlTidy
