import Mathlib
import CfmlTidy.Command.Execute
import CfmlTidy.Proofs.Result.Filter
import CfmlTidy.Proofs.Workspace

/-!
# Exit codes and the least severity

A command that lints can leave out violations below a severity. It then takes the same steps as the
command that leaves out nothing, up to the report, and comes to a result with errors exactly when
the other does. `Task.Parallel` relates such tasks. Whether the report can be written does not
depend on what it says, so the exit code never falls below the one that errors alone give.
-/

namespace CfmlTidy.Command

namespace Task

variable {α β γ δ : Type}

/-- A task goes on with the value that the task before it comes to. -/
theorem run_bind (task : Task α) (next : α → Task β) (session : Session) :
    (task >>= next).run session =
      match task.run session with
      | (.ok value, after) => (next value).run after
      | (.error problem, after) => (.error problem, after) := by
  have unfolded : (task >>= next).run session =
      (ExceptT.bindCont next (task.run session).1) (task.run session).2 := rfl
  rw [unfolded]
  rcases task.run session with ⟨problem | value, after⟩ <;> rfl

/-- Two ends of tasks in the same session: related values, or the same problem. -/
inductive Alike (related : α → β → Prop) :
    Except Problem α × Session → Except Problem β × Session → Prop where
  /-- Both come to related values. -/
  | value {first : α} {second : β} {session : Session} (holds : related first second) :
    Alike related (.ok first, session) (.ok second, session)
  /-- Both end in the same problem. -/
  | problem {problem : Problem} {session : Session} :
    Alike related (.error problem, session) (.error problem, session)

/-- Two tasks that do the same to every session and come to related values. -/
def Parallel (related : α → β → Prop) (first : Task α) (second : Task β) : Prop :=
  ∀ session, Alike related (first.run session) (second.run session)

/-- A task is parallel to itself. -/
theorem Parallel.refl (task : Task α) : Parallel Eq task task := by
  intro session
  rcases task.run session with ⟨problem | value, after⟩
  · exact Alike.problem
  · exact Alike.value rfl

/-- Tasks that come to related values at once are parallel. -/
theorem Parallel.pure {related : α → β → Prop} {first : α} {second : β}
    (holds : related first second) : Parallel related (Pure.pure first) (Pure.pure second) :=
  fun _ => Alike.value holds

/-- Parallel tasks that go on in parallel are parallel. -/
theorem Parallel.bind {related : α → β → Prop} {next : γ → δ → Prop} {first : Task α}
    {second : Task β} {one : α → Task γ} {two : β → Task δ} (start : Parallel related first second)
    (further : ∀ a b, related a b → Parallel next (one a) (two b)) :
    Parallel next (first >>= one) (second >>= two) := by
  intro session
  rw [run_bind, run_bind]
  have before := start session
  revert before
  generalize first.run session = left
  generalize second.run session = right
  rintro (@⟨a, b, after, holds⟩ | _)
  · exact further a b holds after
  · exact Alike.problem

/-- A task is parallel to itself with its value replaced by a related one. -/
theorem Parallel.map {related : α → β → Prop} {change : α → β}
    (holds : ∀ value, related value (change value)) (task : Task α) :
    Parallel related task (change <$> task) := by
  have whole : Parallel related (task >>= Pure.pure)
      (task >>= fun value => Pure.pure (change value)) := by
    apply (Parallel.refl task).bind
    rintro value _ rfl
    exact Parallel.pure (holds value)
  rwa [bind_pure, ← map_eq_pure_bind] at whole

end Task

/-- Two results of which both or neither have errors. -/
def SameErrors (first second : RunResult) : Prop := first.hasErrors = second.hasErrors

/-- The exit code of the end of a command. -/
def codeOf : Except Problem Nat → Nat
  | .ok code => code
  | .error _ => problemCode

/-- The exit code of a command is that of the end of its task. -/
theorem execute_code (surroundings : Surroundings) (invocation : Invocation)
    (workspace : Workspace) :
    (execute surroundings invocation workspace).1 =
      codeOf ((task surroundings invocation).run (Session.start workspace)).1 := by
  unfold execute
  rcases (task surroundings invocation).run (Session.start workspace) with
    ⟨problem | code, session⟩ <;> rfl

section Lint

variable (surroundings : Surroundings) (invocation : Invocation) (input : Input)
  (choices : LintChoices) (minimum : Severity) (ignore : Bool)

/-- The choices of a command that leaves out nothing and fails on errors alone. -/
def LintChoices.onErrors (choices : LintChoices) : LintChoices :=
  { choices with severity := none, ignoreViolations := true }

/-- The choices of a command that leaves out what is below a severity. -/
def LintChoices.fromSeverity (choices : LintChoices) (minimum : Severity) : LintChoices :=
  { choices with severity := some minimum }

/-- With a least severity the result is filtered, and nothing else is different. -/
theorem lintTask_fromSeverity :
    lintTask surroundings invocation input (choices.fromSeverity minimum) =
      (·.retainSeverity minimum) <$>
        lintTask surroundings invocation input choices.onErrors := by
  have options : input.runOptions (some (choices.fromSeverity minimum)) =
      input.runOptions (some choices.onErrors) := rfl
  have filtered : (choices.fromSeverity minimum).severity = some minimum := rfl
  have whole : choices.onErrors.severity = none := rfl
  simp only [lintTask, options, filtered, whole, map_bind, map_pure]

/-- Linting that leaves out what is below a severity runs in parallel to linting that leaves out
nothing. -/
theorem lintTask_parallel :
    Task.Parallel SameErrors (lintTask surroundings invocation input choices.onErrors)
      (lintTask surroundings invocation input (choices.fromSeverity minimum)) := by
  rw [lintTask_fromSeverity]
  apply Task.Parallel.map
  intro result
  exact (RunResult.hasErrors_retainSeverity result minimum).symm

/-- Formatting after linting adds the same errors to both. -/
theorem bothTask_parallel (dryRun : Bool) :
    Task.Parallel SameErrors
      (do
        let linted ← lintTask surroundings invocation input choices.onErrors
        let formatted ← formatTask surroundings invocation input dryRun
        return (linted.merge formatted).setMetadata "mode" (.str "both"))
      (do
        let linted ← lintTask surroundings invocation input (choices.fromSeverity minimum)
        let formatted ← formatTask surroundings invocation input dryRun
        return (linted.merge formatted).setMetadata "mode" (.str "both")) := by
  apply (lintTask_parallel surroundings invocation input choices minimum).bind
  intro linted filtered same
  apply (Task.Parallel.refl _).bind
  rintro formatted _ rfl
  apply Task.Parallel.pure
  change (linted.merge formatted).hasErrors = (filtered.merge formatted).hasErrors
  have errors : linted.hasErrors = filtered.hasErrors := same
  rw [RunResult.hasErrors_merge, RunResult.hasErrors_merge, errors]

end Lint

/-- A report that goes to a file ends the command when the file cannot be written. -/
theorem emit_file {input : Input} {path : String} (output : input.output = some path)
    (invocation : Invocation) (format : Report.Format) (result : RunResult) (session : Session) :
    ((emit invocation input format result).run session).1 =
      match session.workspace.write path (Encoding.Utf8.encode
        (Report.render format false invocation.verbose result).toList) with
      | .error cause => .error (.io cause.message)
      | .ok _ => .ok () := by
  unfold emit
  rw [output]
  have start : Task.workspace.run session = (.ok session.workspace, session) := rfl
  simp only [Task.run_bind, start]
  cases session.workspace.write path (Encoding.Utf8.encode
    (Report.render format false invocation.verbose result).toList) with
  | error cause => rfl
  | ok written => rfl

/-- Whether reporting ends in a problem does not depend on what is reported. -/
theorem emit_end (invocation : Invocation) (input : Input) (format : Report.Format)
    (first second : RunResult) (session : Session) :
    ((emit invocation input format first).run session).1 =
      ((emit invocation input format second).run session).1 := by
  cases output : input.output with
  | none =>
    have printed (text : String) : ((Task.print text).run session).1 = .ok () := rfl
    unfold emit
    rw [output]
    exact (printed _).trans (printed _).symm
  | some path =>
    rw [emit_file output, emit_file output]
    rcases session.workspace.write_refused_or_done path with ⟨cause, refused⟩ | done
    · rw [refused, refused]
    · obtain ⟨_, written⟩ := done (Encoding.Utf8.encode
        (Report.render format false invocation.verbose first).toList)
      obtain ⟨_, rewritten⟩ := done (Encoding.Utf8.encode
        (Report.render format false invocation.verbose second).toList)
      rw [written, rewritten]

/-- The exit code of a command that comes to a result: that of the result once it is reported. -/
theorem codeOf_report (invocation : Invocation) (input : Input) (format : Report.Format)
    (result : RunResult) (ignore : Bool) (session : Session) :
    codeOf ((do emit invocation input format result; return result.exitCode ignore : Task Nat).run
      session).1 =
      match ((emit invocation input format result).run session).1 with
      | .ok _ => result.exitCode ignore
      | .error _ => problemCode := by
  rw [Task.run_bind]
  rcases (emit invocation input format result).run session with ⟨problem | done, after⟩ <;> rfl

/-- Parallel tasks that find errors alike are reported with exit codes no lower than the one that
errors alone give. -/
theorem reporting_code_le {body filtered : Task RunResult}
    (parallel : Task.Parallel SameErrors body filtered) (invocation : Invocation) (input : Input)
    (ignore : Bool) (session : Session) :
    codeOf ((reporting invocation input true body).run session).1 ≤
      codeOf ((reporting invocation input ignore filtered).run session).1 := by
  unfold reporting
  cases Report.Format.ofName input.format with
  | error problem => exact le_refl problemCode
  | ok format =>
    have named : (Task.ofExcept (.ok format)).run session = (.ok format, session) := rfl
    rw [Task.run_bind, Task.run_bind, named]
    simp only [Task.run_bind body, Task.run_bind filtered]
    have ends := parallel session
    revert ends
    generalize body.run session = left
    generalize filtered.run session = right
    rintro (@⟨result, shown, after, same⟩ | _)
    · have codes := RunResult.exitCode_le same ignore
      have emitted := emit_end invocation input format result shown after
      change codeOf ((do emit invocation input format result; return result.exitCode true :
          Task Nat).run after).1 ≤
        codeOf ((do emit invocation input format shown; return shown.exitCode ignore :
          Task Nat).run after).1
      rw [codeOf_report, codeOf_report, emitted]
      cases ((emit invocation input format shown).run after).1 with
      | error problem => exact le_refl problemCode
      | ok done => exact codes
    · exact le_refl problemCode

/-- The invocation of a command. -/
def Invocation.of (invocation : Invocation) (action : Action) : Invocation :=
  { invocation with action := action }

/-- Filtering by severity commutes with merging, composes to the filter by the higher severity, and
leaves everything but violations and their counters as it is. It never hides an error, so a least
severity never lowers the exit code of a command below the one that errors alone give. -/
theorem retainSeverity_laws (result later : RunResult) (minimum other : Severity) :
    (result.merge later).retainSeverity minimum =
        (result.retainSeverity minimum).merge (later.retainSeverity minimum) ∧
      (result.retainSeverity minimum).retainSeverity other =
        result.retainSeverity (minimum.higher other) ∧
      RunResult.SameOtherwise result (result.retainSeverity minimum) ∧
      (result.retainSeverity minimum).hasErrors = result.hasErrors ∧
      ∀ (surroundings : Surroundings) (invocation : Invocation) (input : Input)
        (choices : LintChoices) (dryRun : Bool) (workspace : Workspace),
        (execute surroundings (invocation.of (.lint input choices.onErrors)) workspace).1 ≤
            (execute surroundings (invocation.of (.lint input (choices.fromSeverity minimum)))
              workspace).1 ∧
          (execute surroundings (invocation.of (.both input choices.onErrors dryRun))
              workspace).1 ≤
            (execute surroundings
              (invocation.of (.both input (choices.fromSeverity minimum) dryRun)) workspace).1 := by
  refine ⟨RunResult.retainSeverity_merge result later minimum,
    RunResult.retainSeverity_retainSeverity result minimum other,
    RunResult.retainSeverity_sameOtherwise result minimum,
    RunResult.hasErrors_retainSeverity result minimum, ?_⟩
  intro surroundings invocation input choices dryRun workspace
  simp only [execute_code]
  constructor
  · exact reporting_code_le (lintTask_parallel surroundings _ input choices minimum) _ input
      choices.ignoreViolations _
  · exact reporting_code_le (bothTask_parallel surroundings _ input choices minimum dryRun) _ input
      choices.ignoreViolations _

end CfmlTidy.Command
