import CfmlTidy.Result.Stats
import CfmlTidy.Violation

/-!
# Results of a run

Everything a run finds and changes: violations, changes of formatting, errors and warnings of
files, facts about the run, and the counters. Results of parts of a run merge into one.
-/

namespace CfmlTidy

/-- A change of the layout of a file. -/
structure FormattingChange where
  /-- The file as it was named in the run. -/
  file : String
  /-- First line. -/
  startLine : Nat
  /-- Last line. -/
  endLine : Nat
  /-- The text before. -/
  before : List Char
  /-- The text after. -/
  after : List Char
  /-- The kind of change. -/
  kind : String
  /-- What was done. -/
  description : String
deriving Repr, DecidableEq, Inhabited

/-- The change of a whole file. -/
def FormattingChange.whole (file : String) (before after : List Char) (kind description : String) :
    FormattingChange :=
  ⟨file, 1, Text.lineCount before, before, after, kind, description⟩

/-- Everything a run finds and changes. -/
structure RunResult where
  /-- Violations in the order in which they were found. -/
  violations : List Violation
  /-- Changes of formatting. -/
  changes : List FormattingChange
  /-- What went wrong with files. -/
  errors : List String
  /-- What was left undone. -/
  warnings : List String
  /-- Facts about the run, in the order in which they were first stated. -/
  metadata : List (String × Json)
  /-- The counters. -/
  stats : Stats
deriving Repr, Inhabited

namespace RunResult

/-- Nothing found and nothing changed. -/
def empty : RunResult := ⟨[], [], [], [], [], .empty⟩

/-- Add a violation. -/
def addViolation (result : RunResult) (violation : Violation) : RunResult :=
  { result with
    violations := result.violations ++ [violation]
    stats := result.stats.countViolation violation.severity }

/-- Add violations in order. -/
def addViolations (result : RunResult) (violations : List Violation) : RunResult :=
  violations.foldl addViolation result

/-- Add a change of formatting. -/
def addChange (result : RunResult) (change : FormattingChange) : RunResult :=
  { result with changes := result.changes ++ [change], stats := result.stats.countChange }

/-- Add an error. -/
def addError (result : RunResult) (text : String) : RunResult :=
  { result with errors := result.errors ++ [text] }

/-- Add a warning. -/
def addWarning (result : RunResult) (text : String) : RunResult :=
  { result with warnings := result.warnings ++ [text] }

/-- State a fact in a list of facts: a fact stated again keeps its place. -/
def stateFact (facts : List (String × Json)) (key : String) (value : Json) :
    List (String × Json) :=
  match facts with
  | [] => [(key, value)]
  | (other, current) :: rest =>
    if other = key then (key, value) :: rest else (other, current) :: stateFact rest key value

/-- State a fact about the run. -/
def setMetadata (result : RunResult) (key : String) (value : Json) : RunResult :=
  { result with metadata := stateFact result.metadata key value }

/-- Change the counters. -/
def updateStats (result : RunResult) (update : Stats → Stats) : RunResult :=
  { result with stats := update result.stats }

/-- Whether an error was recorded or a violation is an error. -/
def hasErrors (result : RunResult) : Bool :=
  !result.errors.isEmpty || result.violations.any fun violation => violation.severity == .error

/-- Whether there is a violation. -/
def hasViolations (result : RunResult) : Bool := !result.violations.isEmpty

/-- Whether the run failed; violations that are no errors may be ignored. -/
def isFailure (result : RunResult) (ignoreViolations : Bool) : Bool :=
  result.hasErrors || (!ignoreViolations && result.hasViolations)

/-- The exit code of a run: one when it failed. -/
def exitCode (result : RunResult) (ignoreViolations : Bool) : Nat :=
  if result.isFailure ignoreViolations then 1 else 0

/-- Keep only violations that are serious enough, and count them anew. -/
def retainSeverity (result : RunResult) (minimum : Severity) : RunResult :=
  let kept := result.violations.filter fun violation => violation.severity.atLeast minimum
  { result with
    violations := kept
    stats := kept.foldl (fun stats violation => stats.countViolation violation.severity)
      result.stats.resetViolations }

/-- Merge the result of a later part of the run. Lists are appended, counters add up, and facts
stated later win. -/
def merge (result later : RunResult) : RunResult where
  violations := result.violations ++ later.violations
  changes := result.changes ++ later.changes
  errors := result.errors ++ later.errors
  warnings := result.warnings ++ later.warnings
  metadata :=
    later.metadata.foldl (fun facts fact => stateFact facts fact.1 fact.2) result.metadata
  stats := result.stats.merge later.stats

end RunResult

end CfmlTidy
