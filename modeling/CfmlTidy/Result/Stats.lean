import CfmlTidy.Json.Basic
import CfmlTidy.Severity

/-!
# Statistics of a run

Counters of files, violations and changes, the time spent, and how often each parser was used.
Statistics of parts of a run add up.
-/

namespace CfmlTidy

/-- Counters of a run or of a part of one. -/
structure Stats where
  /-- Files that were processed. -/
  filesProcessed : Nat
  /-- Violations of any severity. -/
  totalViolations : Nat
  /-- Violations that are errors. -/
  errorCount : Nat
  /-- Violations that are warnings. -/
  warningCount : Nat
  /-- Violations that are information. -/
  infoCount : Nat
  /-- Changes of formatting. -/
  formattingChanges : Nat
  /-- Time spent in milliseconds, at most 64 bits. -/
  executionTime : Nat
  /-- Uses of each parser, sorted by its tag. -/
  parserUsage : List (String × Nat)
deriving Repr, DecidableEq, Inhabited

namespace Stats

/-- Nothing counted yet. -/
def empty : Stats := ⟨0, 0, 0, 0, 0, 0, 0, []⟩

/-- The longest time that is recorded. -/
def maxTime : Nat := 0xFFFFFFFFFFFFFFFF

/-- Count a processed file. -/
def countFile (stats : Stats) : Stats := { stats with filesProcessed := stats.filesProcessed + 1 }

/-- Count a violation. -/
def countViolation (stats : Stats) (severity : Severity) : Stats :=
  let total := { stats with totalViolations := stats.totalViolations + 1 }
  match severity with
  | .error => { total with errorCount := stats.errorCount + 1 }
  | .warning => { total with warningCount := stats.warningCount + 1 }
  | .info => { total with infoCount := stats.infoCount + 1 }

/-- Count a change of formatting. -/
def countChange (stats : Stats) : Stats :=
  { stats with formattingChanges := stats.formattingChanges + 1 }

/-- Add uses of a parser. -/
def addUsage (usage : List (String × Nat)) (parser : String) (count : Nat) : List (String × Nat) :=
  Json.putField parser ((usage.lookup parser).getD 0 + count) usage

/-- Count a use of a parser. -/
def countParser (stats : Stats) (parser : String) : Stats :=
  { stats with parserUsage := addUsage stats.parserUsage parser 1 }

/-- Record the time spent, given in nanoseconds. -/
def setTime (stats : Stats) (nanoseconds : Nat) : Stats :=
  { stats with executionTime := min (nanoseconds / 1000000) maxTime }

/-- Forget the violations that were counted. -/
def resetViolations (stats : Stats) : Stats :=
  { stats with totalViolations := 0, errorCount := 0, warningCount := 0, infoCount := 0 }

/-- The counters of two parts of a run together. -/
def merge (left right : Stats) : Stats where
  filesProcessed := left.filesProcessed + right.filesProcessed
  totalViolations := left.totalViolations + right.totalViolations
  errorCount := left.errorCount + right.errorCount
  warningCount := left.warningCount + right.warningCount
  infoCount := left.infoCount + right.infoCount
  formattingChanges := left.formattingChanges + right.formattingChanges
  executionTime := min (left.executionTime + right.executionTime) maxTime
  parserUsage :=
    right.parserUsage.foldl (fun usage entry => addUsage usage entry.1 entry.2) left.parserUsage

/-- The counters as a JSON value. -/
def toJson (stats : Stats) : Json :=
  .obj [("filesProcessed", .nat stats.filesProcessed),
    ("totalViolations", .nat stats.totalViolations),
    ("errorCount", .nat stats.errorCount),
    ("warningCount", .nat stats.warningCount),
    ("infoCount", .nat stats.infoCount),
    ("formattingChanges", .nat stats.formattingChanges),
    ("executionTimeMs", .nat stats.executionTime),
    ("parserUsage", .obj (stats.parserUsage.map fun entry => (entry.1, .nat entry.2)))]

end Stats

end CfmlTidy
