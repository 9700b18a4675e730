import Mathlib
import CfmlTidy.Result.Run

/-!
# Counters and the lists they count

A result keeps its counters beside its lists, and every operation changes both on its own.
`Counted` says that they agree. Each operation preserves it, so it holds of every result that can be
built, `Reachable` being all of them. The filter by severity is the one operation that does not need
it of the result it starts from: it forgets the violations counted so far and counts those it keeps.
-/

namespace CfmlTidy

namespace Stats

/-- Count violations one by one. -/
def countAll (stats : Stats) (violations : List Violation) : Stats :=
  violations.foldl (fun stats violation => stats.countViolation violation.severity) stats

/-- The counter of a severity. -/
def countOf (stats : Stats) : Severity → Nat
  | .info => stats.infoCount
  | .warning => stats.warningCount
  | .error => stats.errorCount

end Stats

/-- The number of violations of a severity. -/
def Violation.ofSeverity (severity : Severity) (violations : List Violation) : Nat :=
  violations.countP fun violation => violation.severity == severity

namespace Violation

/-- The first violation counts for its severity. -/
theorem ofSeverity_cons (severity : Severity) (violation : Violation)
    (rest : List Violation) :
    ofSeverity severity (violation :: rest) =
      ofSeverity severity rest + if violation.severity == severity then 1 else 0 :=
  List.countP_cons

/-- Violations of a severity add up over two lists. -/
theorem ofSeverity_append (severity : Severity) (violations others : List Violation) :
    ofSeverity severity (violations ++ others) =
      ofSeverity severity violations + ofSeverity severity others :=
  List.countP_append

/-- Every violation has one of the three severities. -/
theorem length_eq_ofSeverity (violations : List Violation) :
    violations.length = ofSeverity .error violations + ofSeverity .warning violations +
      ofSeverity .info violations := by
  induction violations with
  | nil => rfl
  | cons violation rest ih =>
    have head : 1 = (if violation.severity == .error then 1 else 0) +
        (if violation.severity == .warning then 1 else 0) +
        (if violation.severity == .info then 1 else 0) := by
      cases violation.severity <;> rfl
    simp only [List.length_cons, ofSeverity_cons]
    omega

/-- An error is among violations exactly when errors are counted. -/
theorem any_error_iff (violations : List Violation) :
    violations.any (fun violation => violation.severity == .error) = true ↔
      0 < ofSeverity .error violations := by
  rw [ofSeverity, List.countP_pos_iff, List.any_eq_true]

end Violation

namespace Stats

open Violation

/-- Counting violations moves their four counters and nothing else. -/
theorem countAll_eq (stats : Stats) (violations : List Violation) :
    stats.countAll violations =
      { stats with
        totalViolations := stats.totalViolations + violations.length
        errorCount := stats.errorCount + ofSeverity .error violations
        warningCount := stats.warningCount + ofSeverity .warning violations
        infoCount := stats.infoCount + ofSeverity .info violations } := by
  induction violations generalizing stats with
  | nil => rfl
  | cons violation rest ih =>
    have step : stats.countAll (violation :: rest) =
        (stats.countViolation violation.severity).countAll rest := rfl
    rw [step, ih]
    have next (counter more : Nat) : counter + 1 + more = counter + (more + 1) := by omega
    cases severity : violation.severity <;>
      simp [countViolation, ofSeverity_cons, severity, next]

/-- Counting violations adds the number of those of each severity. -/
theorem countOf_countAll (stats : Stats) (violations : List Violation) (severity : Severity) :
    (stats.countAll violations).countOf severity =
      stats.countOf severity + ofSeverity severity violations := by
  rw [countAll_eq]
  cases severity <;> rfl

/-- The counters of a severity add up when statistics are merged. -/
theorem countOf_merge (left right : Stats) (severity : Severity) :
    (left.merge right).countOf severity = left.countOf severity + right.countOf severity := by
  cases severity <;> rfl

end Stats

namespace RunResult

open Violation

variable {result later : RunResult}

/-- Adding violations appends them and counts them. -/
theorem addViolations_eq (result : RunResult) (violations : List Violation) :
    result.addViolations violations =
      { result with
        violations := result.violations ++ violations
        stats := result.stats.countAll violations } := by
  induction violations generalizing result with
  | nil => simp [addViolations, Stats.countAll]
  | cons violation rest ih =>
    have step : result.addViolations (violation :: rest) =
        (result.addViolation violation).addViolations rest := rfl
    rw [step, ih]
    simp [addViolation, Stats.countAll]

/-- The counters of a result agree with its lists. -/
structure Counted (result : RunResult) : Prop where
  /-- All violations. -/
  total : result.stats.totalViolations = result.violations.length
  /-- The violations of each severity. -/
  bySeverity : ∀ severity,
    result.stats.countOf severity = ofSeverity severity result.violations
  /-- The changes of formatting. -/
  changes : result.stats.formattingChanges = result.changes.length

/-- The empty result is counted. -/
theorem counted_empty : Counted .empty where
  total := rfl
  bySeverity severity := by cases severity <;> rfl
  changes := rfl

/-- Adding violations keeps a result counted. -/
theorem Counted.addViolations (counted : Counted result) (violations : List Violation) :
    Counted (result.addViolations violations) := by
  rw [addViolations_eq]
  constructor
  · have total := counted.total
    rw [Stats.countAll_eq, List.length_append]
    change result.stats.totalViolations + violations.length = _
    omega
  · intro severity
    have before := counted.bySeverity severity
    rw [Stats.countOf_countAll, ofSeverity_append, before]
  · have changes := counted.changes
    rw [Stats.countAll_eq]
    exact changes

/-- Adding a violation keeps a result counted. -/
theorem Counted.addViolation (counted : Counted result) (violation : Violation) :
    Counted (result.addViolation violation) :=
  counted.addViolations [violation]

/-- Adding a change keeps a result counted. -/
theorem Counted.addChange (counted : Counted result) (change : FormattingChange) :
    Counted (result.addChange change) where
  total := counted.total
  bySeverity severity := by
    have before := counted.bySeverity severity
    cases severity <;> exact before
  changes := by
    have changes := counted.changes
    change result.stats.formattingChanges + 1 = (result.changes ++ [change]).length
    rw [List.length_append, List.length_singleton, changes]

/-- An update of the counters that leaves those of violations and changes alone is harmless. -/
theorem Counted.updateStats (counted : Counted result) {update : Stats → Stats}
    (total : (update result.stats).totalViolations = result.stats.totalViolations)
    (bySeverity : ∀ severity,
      (update result.stats).countOf severity = result.stats.countOf severity)
    (changes : (update result.stats).formattingChanges = result.stats.formattingChanges) :
    Counted (result.updateStats update) where
  total := total.trans counted.total
  bySeverity severity := (bySeverity severity).trans (counted.bySeverity severity)
  changes := changes.trans counted.changes

/-- Filtering counts anew, so the counters of violations before do not matter. -/
theorem Counted.retainSeverity (counted : Counted result) (minimum : Severity) :
    Counted (result.retainSeverity minimum) := by
  have stats : (result.retainSeverity minimum).stats =
      result.stats.resetViolations.countAll (result.retainSeverity minimum).violations := rfl
  constructor
  · rw [stats, Stats.countAll_eq]
    exact Nat.zero_add _
  · intro severity
    have forgotten : result.stats.resetViolations.countOf severity = 0 := by
      cases severity <;> rfl
    rw [stats, Stats.countOf_countAll, forgotten, Nat.zero_add]
  · rw [stats, Stats.countAll_eq]
    exact counted.changes

/-- Merging keeps results counted. -/
theorem Counted.merge (first : Counted result) (second : Counted later) :
    Counted (result.merge later) where
  total := by
    change result.stats.totalViolations + later.stats.totalViolations =
      (result.violations ++ later.violations).length
    rw [List.length_append, first.total, second.total]
  bySeverity severity := by
    change (result.stats.merge later.stats).countOf severity =
      ofSeverity severity (result.violations ++ later.violations)
    rw [Stats.countOf_merge, ofSeverity_append, first.bySeverity, second.bySeverity]
  changes := by
    change result.stats.formattingChanges + later.stats.formattingChanges =
      (result.changes ++ later.changes).length
    rw [List.length_append, first.changes, second.changes]

/-- What can be built from nothing by adding, stating, filtering and merging, and by the updates of
counters that runs make. -/
inductive Reachable : RunResult → Prop where
  /-- The empty result. -/
  | empty : Reachable .empty
  /-- A violation is added. -/
  | addViolation {result : RunResult} (reached : Reachable result) (violation : Violation) :
    Reachable (result.addViolation violation)
  /-- Violations are added in order. -/
  | addViolations {result : RunResult} (reached : Reachable result)
    (violations : List Violation) : Reachable (result.addViolations violations)
  /-- A change is added. -/
  | addChange {result : RunResult} (reached : Reachable result) (change : FormattingChange) :
    Reachable (result.addChange change)
  /-- An error is added. -/
  | addError {result : RunResult} (reached : Reachable result) (text : String) :
    Reachable (result.addError text)
  /-- A warning is added. -/
  | addWarning {result : RunResult} (reached : Reachable result) (text : String) :
    Reachable (result.addWarning text)
  /-- A fact is stated. -/
  | setMetadata {result : RunResult} (reached : Reachable result) (key : String) (value : Json) :
    Reachable (result.setMetadata key value)
  /-- What is below a severity is left out. -/
  | retainSeverity {result : RunResult} (reached : Reachable result) (minimum : Severity) :
    Reachable (result.retainSeverity minimum)
  /-- Another result is merged. -/
  | merge {result later : RunResult} (reached : Reachable result) (second : Reachable later) :
    Reachable (result.merge later)
  /-- A file is counted. -/
  | countFile {result : RunResult} (reached : Reachable result) :
    Reachable (result.updateStats (·.countFile))
  /-- The use of a parser is counted. -/
  | countParser {result : RunResult} (reached : Reachable result) (parser : String) :
    Reachable (result.updateStats (·.countParser parser))
  /-- The time is stated. -/
  | setTime {result : RunResult} (reached : Reachable result) (nanoseconds : Nat) :
    Reachable (result.updateStats (·.setTime nanoseconds))

/-- Every result that can be reached is counted. -/
theorem Reachable.counted (reachable : Reachable result) : Counted result := by
  induction reachable with
  | empty => exact counted_empty
  | addViolation _ violation ih => exact ih.addViolation violation
  | addViolations _ violations ih => exact ih.addViolations violations
  | addChange _ change ih => exact ih.addChange change
  | addError _ _ ih => exact ⟨ih.total, ih.bySeverity, ih.changes⟩
  | addWarning _ _ ih => exact ⟨ih.total, ih.bySeverity, ih.changes⟩
  | setMetadata _ _ _ ih => exact ⟨ih.total, ih.bySeverity, ih.changes⟩
  | retainSeverity _ minimum ih => exact ih.retainSeverity minimum
  | merge _ _ first second => exact first.merge second
  | countFile _ ih => exact ih.updateStats rfl (fun severity => by cases severity <;> rfl) rfl
  | countParser _ _ ih => exact ih.updateStats rfl (fun severity => by cases severity <;> rfl) rfl
  | setTime _ _ ih => exact ih.updateStats rfl (fun severity => by cases severity <;> rfl) rfl

/-- Errors show in the lists exactly when they show in the error list or in the error counter. -/
theorem Counted.hasErrors_iff (counted : Counted result) :
    result.hasErrors = true ↔ result.errors ≠ [] ∨ 0 < result.stats.errorCount := by
  have errors : result.stats.errorCount = ofSeverity .error result.violations :=
    counted.bySeverity .error
  rw [hasErrors, Bool.or_eq_true, any_error_iff, errors]
  simp

/-- In every result that can be built the counters agree with the lists, and whether it has errors
can be read off the error list and the error counter. -/
theorem reachable_counts_agree (reachable : Reachable result) :
    result.stats.totalViolations = result.violations.length ∧
      result.stats.totalViolations =
        result.stats.errorCount + result.stats.warningCount + result.stats.infoCount ∧
      (∀ severity, result.stats.countOf severity =
        (result.violations.filter fun violation => violation.severity == severity).length) ∧
      result.stats.formattingChanges = result.changes.length ∧
      (result.hasErrors = true ↔ result.errors ≠ [] ∨ 0 < result.stats.errorCount) := by
  have counted := reachable.counted
  refine ⟨counted.total, ?_, ?_, counted.changes, counted.hasErrors_iff⟩
  · have errors : result.stats.errorCount = _ := counted.bySeverity .error
    have warnings : result.stats.warningCount = _ := counted.bySeverity .warning
    have infos : result.stats.infoCount = _ := counted.bySeverity .info
    have sum := length_eq_ofSeverity result.violations
    rw [counted.total, sum, errors, warnings, infos]
  · intro severity
    rw [counted.bySeverity, ofSeverity, List.countP_eq_length_filter]

/-- A violation of each severity, the error found in a later part of the run, and then all but the
error left out. -/
theorem reachable_counts_agree_filtered :
    let found (severity : Severity) : Violation :=
      .located "MAX_LINE_LENGTH" "Line is too long" severity "a.cfm" ⟨3, 121⟩
    let result := ((((RunResult.empty.addViolations [found .info, found .warning]).updateStats
      (·.countFile)).merge (RunResult.empty.addViolation (found .error))).retainSeverity .error)
    Reachable result ∧ result.stats.totalViolations = 1 ∧ result.hasErrors = true := by
  intro found result
  have reachable : Reachable result :=
    ((Reachable.empty.addViolations _).countFile.merge
      (Reachable.empty.addViolation _)).retainSeverity _
  obtain ⟨total, -, -, -, errors⟩ := reachable_counts_agree reachable
  have kept : result.violations.length = 1 := by decide +kernel
  have counted : 0 < result.stats.errorCount := by decide +kernel
  exact ⟨reachable, total.trans kept, errors.mpr (Or.inr counted)⟩

end RunResult

end CfmlTidy
