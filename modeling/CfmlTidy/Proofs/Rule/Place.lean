import Mathlib
import CfmlTidy.Proofs.Parse.Issue
import CfmlTidy.Proofs.Rule.Finding

/-!
# Where violations lie

Every violation of built-in rules lies on a line of its file, so every violation of a file with
lines has a snippet.
-/

namespace CfmlTidy.Rule

open CfmlTidy.Text (splitLines)
open CfmlTidy.Parsed (strayBracket)

variable {backend : Backend} {path : String} {content : List Char} {parsed : Parsed}
  {settings : Settings} {violation : Violation}

/-- Syntax errors lie where the issues are. -/
theorem pointsInto_syntaxErrors (read : backend.parse none path content = .ok parsed)
    (listed : violation ∈ syntaxErrors.outcome (.ofParsed parsed settings)) :
    violation.PointsInto (splitLines content).length := by
  apply pointsInto_ofFindings ?_ listed
  intro finding found
  obtain ⟨issue, severe, rfl⟩ := List.mem_map.mp found
  exact Backend.line_of_mem_issues read (List.mem_filter.mp severe).1

/-- A violation of a built-in rule points into the file. -/
theorem pointsInto_of_mem_builtin (read : backend.parse none path content = .ok parsed)
    {rule : Rule} (known : rule ∈ builtin)
    (listed : violation ∈ rule.outcome (.ofParsed parsed settings)) :
    violation.PointsInto (splitLines content).length := by
  have answers := Backend.answers_of_parse read
  rcases List.mem_cons.mp known with rfl | other
  · exact pointsInto_syntaxErrors read listed
  · rw [← answers.content_eq]
    exact (mild_of_mem_builtin other parsed settings violation listed).2

/-- With a file read by any of the parsers without a script engine, every violation that built-in
rules find has a line and a column counted from one, lies on a line of the file or on the first, and
is one column wide. Where the file has lines, the violation has a snippet that shows the lines
around it by consecutive numbers and marks its line alone. -/
theorem analyze_pointsInto {rules : List Rule} (known : rules ⊆ builtin)
    (read : backend.parse none path content = .ok parsed) (settings : Settings) :
    ∀ violation ∈ analyze rules (.ofParsed parsed settings),
      violation.PointsInto (splitLines content).length ∧
        (splitLines content ≠ [] →
          ∃ snippet, Snippet.around? (splitLines content) violation.line = some snippet ∧
            Snippet.Shows (splitLines content) violation.line snippet) := by
  intro violation listed
  obtain ⟨rule, among, found⟩ := List.mem_flatMap.mp listed
  have points := pointsInto_of_mem_builtin read (known among) found
  refine ⟨points, fun present => ?_⟩
  have lines : 1 ≤ (splitLines content).length := List.length_pos_of_ne_nil present
  have last : violation.line ≤ (splitLines content).length := by
    have bound := points.line_le
    omega
  exact Snippet.shows_around? points.line_pos last

/-- A bracket that was never opened is found on the second line, and a snippet shows that line. -/
theorem analyze_pointsInto_strayBracket :
    let rules := [syntaxErrors, trailingWhitespace]
    rules ⊆ builtin ∧
      Backend.structural.parse none "page.cfc" strayBracket.content = .ok strayBracket ∧
      ∃ violation ∈ analyze rules (.ofParsed strayBracket .default),
        violation.line = 2 ∧ violation.PointsInto 2 ∧
          ∃ snippet, Snippet.Shows (splitLines strayBracket.content) 2 snippet := by
  intro rules
  have known : rules ⊆ builtin := (List.take_sublist 2 builtin).subset
  have read : Backend.structural.parse none "page.cfc" strayBracket.content = .ok strayBracket := by
    decide +kernel
  have count : (splitLines strayBracket.content).length = 2 := by decide +kernel
  have listed : 2 ∈ (analyze rules (.ofParsed strayBracket .default)).map Violation.line := by
    decide +kernel
  obtain ⟨violation, among, second⟩ := List.mem_map.mp listed
  obtain ⟨points, shown⟩ := analyze_pointsInto known read .default violation among
  rw [second] at shown
  obtain ⟨snippet, -, display⟩ := shown (List.ne_nil_of_length_pos (by omega))
  exact ⟨known, read, violation, among, second, count ▸ points, snippet, display⟩

end CfmlTidy.Rule
