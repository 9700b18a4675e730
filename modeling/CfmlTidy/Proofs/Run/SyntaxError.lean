import Mathlib
import CfmlTidy.Proofs.Parse.Issue
import CfmlTidy.Proofs.Rule.Finding
import CfmlTidy.Proofs.Run.Accounting

/-!
# Errors among violations

The violations of a file that are errors are its syntax errors, one for each issue that is an error
and in the order of the issues. So the issues of a file, its list of errors, its soundness and its
violations say the same.
-/

namespace CfmlTidy

/-- Whether a violation is an error. -/
def Violation.isError (violation : Violation) : Bool := violation.severity == .error

/-- What a violation says and where. -/
def Violation.told (violation : Violation) : Nat × Nat × String :=
  (violation.line, violation.column, violation.message)

/-- What an issue says and where. -/
def Issue.told (issue : Issue) : Nat × Nat × String := (issue.line, issue.column, issue.message)

namespace Snippet

variable (lines : List (List Char)) (violation : Violation)

/-- A snippet does not make a violation an error. -/
theorem isError_attach : (attach lines violation).isError = violation.isError := by
  unfold attach
  cases around? lines violation.line <;> rfl

/-- A snippet leaves what a violation tells as it is. -/
theorem told_attach : (attach lines violation).told = violation.told := by
  unfold attach
  cases around? lines violation.line <;> rfl

end Snippet

namespace Rule

variable {rules : List Rule} {parsed : Parsed} {settings : Settings}

/-- Where the rule for syntax errors is active, it is the first. -/
theorem eq_syntaxErrors_cons (known : rules.Sublist builtin)
    (active : "SYNTAX_ERROR" ∈ rules.map Rule.id) :
    ∃ others, rules = syntaxErrors :: others ∧ others.Sublist builtin.tail := by
  rcases List.sublist_cons_iff.mp known with without | found
  · have absent : "SYNTAX_ERROR" ∉ builtin.tail.map Rule.id := by decide
    exact absurd ((without.map Rule.id).subset active) absent
  · exact found

/-- The other rules find no errors. -/
theorem isError_of_mem_analyze (known : rules.Sublist builtin.tail) {violation : Violation}
    (listed : violation ∈ analyze rules (.ofParsed parsed settings)) :
    violation.isError = false := by
  obtain ⟨rule, among, found⟩ := List.mem_flatMap.mp listed
  have mild := mild_of_mem_builtin (known.subset among) parsed settings violation found
  exact beq_eq_false_iff_ne.mpr mild.1

/-- The errors that rules find are those of the rule for syntax errors. -/
theorem filter_isError_analyze (known : rules.Sublist builtin)
    (active : "SYNTAX_ERROR" ∈ rules.map Rule.id) :
    (analyze rules (.ofParsed parsed settings)).filter Violation.isError =
      syntaxErrors.outcome (.ofParsed parsed settings) := by
  obtain ⟨others, rfl, remaining⟩ := eq_syntaxErrors_cons known active
  have severe : ∀ violation ∈ syntaxErrors.outcome (.ofParsed parsed settings),
      violation.isError = true := by
    intro violation listed
    obtain ⟨finding, found, rfl⟩ := List.mem_map.mp listed
    obtain ⟨issue, -, rfl⟩ := List.mem_map.mp found
    rfl
  have mild : (analyze others (.ofParsed parsed settings)).filter Violation.isError = [] := by
    rw [List.filter_eq_nil_iff]
    intro violation listed
    rw [isError_of_mem_analyze remaining listed]
    exact Bool.false_ne_true
  have parts : analyze (syntaxErrors :: others) (.ofParsed parsed settings) =
      syntaxErrors.outcome (.ofParsed parsed settings) ++
        analyze others (.ofParsed parsed settings) := List.flatMap_cons
  rw [parts, List.filter_append, List.filter_eq_self.mpr severe, mild, List.append_nil]

/-- Syntax errors say what the issues say, where places of issues are counted from one. -/
theorem map_told_syntaxErrors
    (counted : ∀ issue ∈ parsed.issues, 1 ≤ issue.line ∧ 1 ≤ issue.column) :
    (syntaxErrors.outcome (.ofParsed parsed settings)).map Violation.told =
      (parsed.issues.filter Issue.isError).map Issue.told := by
  have outcome : syntaxErrors.outcome (.ofParsed parsed settings) =
      ((parsed.issues.filter Issue.isError).map fun issue =>
        (⟨.error, ⟨issue.line, issue.column⟩, issue.message, none⟩ : Finding)).map
          fun finding =>
            { Violation.located "SYNTAX_ERROR" finding.message finding.severity parsed.path
                finding.place with
              category := some Category.syntaxError
              fix := finding.fix } := rfl
  rw [outcome, List.map_map, List.map_map]
  apply List.map_congr_left
  intro issue severe
  obtain ⟨line, column⟩ := counted issue (List.mem_filter.mp severe).1
  simp only [Function.comp_apply, Violation.told, Violation.located, Issue.told]
  rw [max_eq_left line, max_eq_left column]

end Rule

namespace Run.Linter

open CfmlTidy.Parsed (strayBracket)

variable {linter : Linter} {snippets : Bool} {backend : Backend} {file : String}
  {content : List Char} {parsed : Parsed}

/-- A result that tells the errors of a parsed file: the violations that are errors are the issues
that are errors, one for one, those are listed as the errors of the file, and there are some exactly
when the file is not sound. -/
structure TellsErrors (parsed : Parsed) (result : RunResult) : Prop where
  /-- The errors among violations are the errors among issues. -/
  told_eq : (result.violations.filter Violation.isError).map Violation.told =
    (parsed.issues.filter Issue.isError).map Issue.told
  /-- The errors of the file are the errors among issues. -/
  errors_eq : parsed.errors = (parsed.issues.filter Issue.isError).map Issue.summary
  /-- The result has errors exactly when the file is not sound. -/
  hasErrors_iff : result.hasErrors = true ↔ parsed.success = false

/-- The violations of a file are listed in its partial result, and nothing goes wrong. -/
theorem violations_resultOf :
    (linter.resultOf snippets backend parsed).violations = linter.violationsOf snippets parsed ∧
      (linter.resultOf snippets backend parsed).errors = [] := by
  rw [resultOf, RunResult.addViolations_eq]
  exact ⟨rfl, rfl⟩

/-- The errors among the violations of a file say what its issues say. -/
theorem map_told_violationsOf (known : linter.rules.Sublist Rule.builtin)
    (active : "SYNTAX_ERROR" ∈ linter.rules.map Rule.id)
    (enabled : linter.settings.lintingEnabled = true) (answers : parsed.Answers content)
    (snippets : Bool) :
    ((linter.violationsOf snippets parsed).filter Violation.isError).map Violation.told =
      (parsed.issues.filter Issue.isError).map Issue.told := by
  have plain : ((Rule.analyze linter.rules (.ofParsed parsed linter.settings)).filter
      Violation.isError).map Violation.told =
        (parsed.issues.filter Issue.isError).map Issue.told := by
    rw [Rule.filter_isError_analyze known active]
    exact Rule.map_told_syntaxErrors answers.counted
  rw [violationsOf, if_pos enabled]
  cases snippets with
  | false => exact plain
  | true =>
    have severe : Violation.isError ∘ Snippet.attach (Text.splitLines parsed.content) =
        Violation.isError := funext (Snippet.isError_attach _)
    have told : Violation.told ∘ Snippet.attach (Text.splitLines parsed.content) =
        Violation.told := funext (Snippet.told_attach _)
    rw [if_pos rfl, List.filter_map, List.map_map, severe, told]
    exact plain

/-- The result of a parsed file tells its errors. -/
theorem tellsErrors_resultOf (known : linter.rules.Sublist Rule.builtin)
    (active : "SYNTAX_ERROR" ∈ linter.rules.map Rule.id)
    (enabled : linter.settings.lintingEnabled = true) (answers : parsed.Answers content) :
    TellsErrors parsed (linter.resultOf snippets backend parsed) := by
  obtain ⟨violations, errors⟩ := @violations_resultOf linter snippets backend parsed
  have told := map_told_violationsOf known active enabled answers snippets
  rw [← violations] at told
  refine ⟨told, answers.errors_eq, ?_⟩
  have lengths := congrArg List.length told
  rw [List.length_map, List.length_map] at lengths
  rw [RunResult.hasErrors, errors, answers.success_eq, List.isEmpty_nil, Bool.not_true,
    Bool.false_or, Bool.eq_false_iff, ne_eq, List.isEmpty_iff_length_eq_zero, ← lengths,
    List.length_eq_zero_iff, List.filter_eq_nil_iff, List.any_eq_true]
  simp [Violation.isError]

/-- With linting enabled and the rule for syntax errors active among built-in rules, what any parser
reads from a content is told by the partial result: its issues that are errors, its list of errors
and its soundness agree with the violations that are errors. So it is with every file that is read
in a run. -/
theorem answerOf_tellsErrors (known : linter.rules.Sublist Rule.builtin)
    (active : "SYNTAX_ERROR" ∈ linter.rules.map Rule.id)
    (enabled : linter.settings.lintingEnabled = true)
    (read : backend.parse linter.script file content = .ok parsed) (snippets : Bool) :
    TellsErrors parsed (linter.answerOf snippets backend file content) ∧
      ∀ workspace, isTooLarge workspace linter.settings file = false →
        linter.parsed? workspace file = some (backend, parsed) →
          TellsErrors parsed ((linter.lintFile workspace snippets file).partialResult "lint") := by
  have answers := Backend.answers_of_parse read
  have tells : TellsErrors parsed (linter.resultOf snippets backend parsed) :=
    tellsErrors_resultOf known active enabled answers
  constructor
  · rw [answerOf, read]
    exact tells
  · intro workspace small found
    have exit := lintFile_exit linter workspace snippets file
    generalize (linter.lintFile workspace snippets file).partialResult "lint" = result at exit
    cases exit with
    | skipped large =>
      rw [small] at large
      contradiction
    | failed _ absent =>
      rw [found] at absent
      contradiction
    | analyzed _ same =>
      obtain ⟨rfl, rfl⟩ := Prod.mk.inj (Option.some.inj (found.symm.trans same))
      exact tells

/-- Surroundings in which no program can be started. -/
abbrev noPrograms : Launcher := ⟨fun _ _ _ => .error "No such program"⟩

/-- A linter with the default settings and rules tells of a bracket that was never opened. -/
theorem answerOf_tellsErrors_strayBracket :
    let linter := (@ofSettings noPrograms .default .default).value
    linter.rules.Sublist Rule.builtin ∧ "SYNTAX_ERROR" ∈ linter.rules.map Rule.id ∧
      linter.settings.lintingEnabled = true ∧
      Backend.structural.parse linter.script "page.cfc" strayBracket.content = .ok strayBracket ∧
      (linter.answerOf true .structural "page.cfc" strayBracket.content).hasErrors = true := by
  intro linter
  have known : linter.rules.Sublist Rule.builtin := List.filter_sublist
  have active : "SYNTAX_ERROR" ∈ linter.rules.map Rule.id := by decide +kernel
  have enabled : linter.settings.lintingEnabled = true := by decide +kernel
  have read : Backend.structural.parse linter.script "page.cfc" strayBracket.content =
      .ok strayBracket := by decide +kernel
  have tells := (answerOf_tellsErrors known active enabled read true).1
  exact ⟨known, active, enabled, read, tells.hasErrors_iff.mpr rfl⟩

end Run.Linter

end CfmlTidy
