import Mathlib
import CfmlTidy.Proofs.Result.Counted

/-!
# Filtering by severity

A filter keeps the violations that are serious enough and counts them anew. It makes no difference
whether parts of a run are filtered before or after they are merged: the counters that merging adds
up are those of the kept violations on either way. No filter leaves out an error.
-/

namespace CfmlTidy

namespace Severity

/-- The more serious of two severities. -/
def higher (first second : Severity) : Severity :=
  if second.atLeast first then second else first

/-- Being as serious as both is being as serious as the higher. -/
theorem atLeast_higher (severity first second : Severity) :
    severity.atLeast (first.higher second) =
      (severity.atLeast first && severity.atLeast second) := by
  unfold higher
  by_cases order : first.level ≤ second.level
  · have test : second.atLeast first = true := decide_eq_true order
    rw [if_pos test, atLeast, atLeast, ← Bool.decide_and, decide_eq_decide]
    omega
  · have test : ¬ second.atLeast first = true := by
      intro above
      exact order (of_decide_eq_true above)
    rw [if_neg test, atLeast, atLeast, ← Bool.decide_and, decide_eq_decide]
    omega

/-- An error is kept by every filter. -/
theorem atLeast_of_error (minimum : Severity) : Severity.error.atLeast minimum = true := by
  cases minimum <;> rfl

end Severity

namespace RunResult

open Violation

variable (result later : RunResult) (minimum : Severity)

/-- The violations that a filter keeps. -/
def kept (violations : List Violation) : List Violation :=
  violations.filter fun violation => violation.severity.atLeast minimum

/-- Filtering keeps the violations that are serious enough, counts them anew and leaves everything
else. -/
theorem retainSeverity_eq :
    result.retainSeverity minimum =
      { result with
        violations := kept minimum result.violations
        stats := result.stats.resetViolations.countAll (kept minimum result.violations) } :=
  rfl

/-- Counters of violations that were forgotten on both sides add up to those of the violations
counted since. -/
theorem countAll_resetViolations_merge (left right : Stats) (first second : List Violation) :
    (left.merge right).resetViolations.countAll (first ++ second) =
      (left.resetViolations.countAll first).merge (right.resetViolations.countAll second) := by
  simp only [Stats.countAll_eq, Stats.resetViolations, Stats.merge, List.length_append,
    ofSeverity_append, Nat.zero_add]

/-- Filtering commutes with merging. -/
theorem retainSeverity_merge :
    (result.merge later).retainSeverity minimum =
      (result.retainSeverity minimum).merge (later.retainSeverity minimum) := by
  have violations : kept minimum (result.violations ++ later.violations) =
      kept minimum result.violations ++ kept minimum later.violations := List.filter_append _ _
  have stats := countAll_resetViolations_merge result.stats later.stats
    (kept minimum result.violations) (kept minimum later.violations)
  simp only [retainSeverity_eq, merge, violations, stats]

/-- Filtering twice is filtering by the higher severity. -/
theorem retainSeverity_retainSeverity (first second : Severity) :
    (result.retainSeverity first).retainSeverity second =
      result.retainSeverity (first.higher second) := by
  have violations : kept second (kept first result.violations) =
      kept (first.higher second) result.violations := by
    simp only [kept, List.filter_filter, Severity.atLeast_higher, Bool.and_comm]
  have stats (others : List Violation) :
      (result.stats.resetViolations.countAll others).resetViolations =
        result.stats.resetViolations := by
    rw [Stats.countAll_eq]
    rfl
  simp only [retainSeverity_eq, violations, stats]

/-- What a filter leaves as it is. -/
structure SameOtherwise (before after : RunResult) : Prop where
  /-- The same errors. -/
  errors : after.errors = before.errors
  /-- The same warnings. -/
  warnings : after.warnings = before.warnings
  /-- The same changes. -/
  changes : after.changes = before.changes
  /-- The same facts. -/
  metadata : after.metadata = before.metadata
  /-- As many files. -/
  filesProcessed : after.stats.filesProcessed = before.stats.filesProcessed
  /-- As many changes. -/
  formattingChanges : after.stats.formattingChanges = before.stats.formattingChanges
  /-- The same time. -/
  executionTime : after.stats.executionTime = before.stats.executionTime
  /-- The same uses of parsers. -/
  parserUsage : after.stats.parserUsage = before.stats.parserUsage

/-- Filtering leaves everything but the violations and their counters. -/
theorem retainSeverity_sameOtherwise :
    SameOtherwise result (result.retainSeverity minimum) := by
  rw [retainSeverity_eq, Stats.countAll_eq]
  exact ⟨rfl, rfl, rfl, rfl, rfl, rfl, rfl, rfl⟩

/-- No filter leaves out an error. -/
theorem hasErrors_retainSeverity :
    (result.retainSeverity minimum).hasErrors = result.hasErrors := by
  have errors :
      (kept minimum result.violations).any (fun violation => violation.severity == .error) =
        result.violations.any fun violation => violation.severity == .error := by
    rw [kept, List.any_filter]
    congr 1
    funext violation
    cases severity : violation.severity
    · exact Bool.and_false _
    · exact Bool.and_false _
    · rw [Severity.atLeast_of_error, Bool.true_and]
  rw [hasErrors, hasErrors, retainSeverity_eq, errors]

/-- A merged result has errors when one of its parts has. -/
theorem hasErrors_merge :
    (result.merge later).hasErrors = (result.hasErrors || later.hasErrors) := by
  have errors : (result.errors ++ later.errors).isEmpty =
      (result.errors.isEmpty && later.errors.isEmpty) := by
    cases result.errors <;> rfl
  simp only [hasErrors, merge, List.any_append, errors, Bool.not_and]
  ac_rfl

/-- Errors alone decide a run when violations are ignored, and otherwise they suffice. -/
theorem exitCode_le {result later : RunResult} (same : result.hasErrors = later.hasErrors)
    (ignoreViolations : Bool) : result.exitCode true ≤ later.exitCode ignoreViolations := by
  unfold exitCode isFailure
  rw [same]
  cases later.hasErrors with
  | false => exact Nat.zero_le _
  | true => exact le_refl 1

end RunResult

end CfmlTidy
