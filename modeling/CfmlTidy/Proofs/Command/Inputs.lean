import Mathlib
import CfmlTidy.Proofs.Command.ExitCode

/-!
# The inputs of a command

A command that processes files loads its settings, checks them and selects its files before it does
anything else. Up to there it only looks at the workspace: `Task.Answers` says so of a task and says
what it comes to, and `inputsOf` is what loading, checking and selecting come to. Linting keeps to
looking. Formatting writes, but only once its inputs are found, and `Task.Follows` says so of it and
of linting and formatting together.
-/

namespace CfmlTidy

namespace Run

/-- Linting comes to a result when its files can be selected. -/
theorem Linter.lintPath_value (linter : Linter) (workspace : Workspace)
    (arrival : List Outcome → List Outcome) (root : String) :
    (linter.lintPath workspace arrival root).value =
      (selectInputs workspace linter.settings linter.options root).value >>= fun files =>
        .ok (linter.describe root
          (linter.lintFiles workspace arrival (workspace.isFile root) files).result) := by
  unfold lintPath
  cases selected : (selectInputs workspace linter.settings linter.options root).value with
  | error problem =>
    simp only [selected]
    rfl
  | ok files =>
    simp only [selected]
    rfl

/-- Formatting comes to a result when its files can be selected. -/
theorem Formatter.formatPath_value (formatter : Formatter) (workspace : Workspace)
    (arrival : List Outcome → List Outcome) (root : String) :
    (formatter.formatPath workspace arrival root).2.value =
      (selectInputs workspace formatter.settings formatter.options root).value >>= fun files =>
        .ok (formatter.describe (formatter.formatFiles workspace arrival files).2.result) := by
  unfold formatPath
  cases selected : (selectInputs workspace formatter.settings formatter.options root).value with
  | error problem =>
    simp only [selected]
    rfl
  | ok files =>
    simp only [selected]
    rfl

/-- Formatting whose files cannot be selected leaves the workspace as it is. -/
theorem Formatter.formatPath_workspace (formatter : Formatter) (workspace : Workspace)
    (arrival : List Outcome → List Outcome) (root : String) {problem : Problem}
    (failed : (selectInputs workspace formatter.settings formatter.options root).value =
      .error problem) : (formatter.formatPath workspace arrival root).1 = workspace := by
  unfold formatPath
  simp only [failed]

end Run

namespace Command

namespace Task

variable {α β γ : Type} {workspace : Workspace}

/-- A task that looks at a workspace, comes to an answer, and does nothing but log. -/
def Answers (task : Task α) (workspace : Workspace) (answer : Except Problem α) : Prop :=
  ∀ session, session.workspace = workspace →
    ∃ lines, task.run session = (answer, { session with log := session.log ++ lines })

/-- A value answers with itself. -/
theorem Answers.pure (value : α) : Answers (Pure.pure value) workspace (.ok value) := by
  intro session _
  refine ⟨[], ?_⟩
  rw [List.append_nil]
  rfl

/-- An answer is given as it is. -/
theorem Answers.ofExcept (answer : Except Problem α) :
    Answers (Task.ofExcept answer) workspace answer := by
  intro session _
  refine ⟨[], ?_⟩
  rw [List.append_nil]
  cases answer <;> rfl

/-- A task that goes on after an answer answers with what is left to do. -/
theorem Answers.bind {task : Task α} {next : α → Task β} {answer : Except Problem α}
    {further : α → Except Problem β} (first : Answers task workspace answer)
    (second : ∀ value, Answers (next value) workspace (further value)) :
    Answers (task >>= next) workspace (answer >>= further) := by
  intro session here
  obtain ⟨lines, ran⟩ := first session here
  rw [run_bind, ran]
  cases answer with
  | error problem => exact ⟨lines, rfl⟩
  | ok value =>
    obtain ⟨more, went⟩ := second value { session with log := session.log ++ lines } here
    refine ⟨lines ++ more, ?_⟩
    rw [← List.append_assoc]
    exact went

/-- A task that stops at a problem stops whatever was to follow it. -/
theorem Answers.stop {task : Task α} {problem : Problem}
    (stops : Answers task workspace (.error problem)) (next : α → Task β) :
    Answers (task >>= next) workspace (.error problem) := by
  intro session here
  obtain ⟨lines, ran⟩ := stops session here
  refine ⟨lines, ?_⟩
  rw [run_bind, ran]

/-- A task that looks at the workspace first. -/
theorem Answers.looking {next : Workspace → Task α} {answer : Except Problem α}
    (second : Answers (next workspace) workspace answer) :
    Answers (Task.workspace >>= next) workspace answer := by
  rintro session rfl
  exact second session rfl

/-- Writing to the log in front of a task leaves its answer as it is. -/
theorem Answers.afterLogging {task : Task α} {answer : Except Problem α} (lines : List LogLine)
    (second : Answers task workspace answer) :
    Answers (Task.logging lines >>= fun _ => task) workspace answer := by
  intro session here
  obtain ⟨more, ran⟩ := second { session with log := session.log ++ lines } here
  refine ⟨lines ++ more, ?_⟩
  rw [← List.append_assoc]
  exact ran

/-- A computation that logs answers with its value. -/
theorem Answers.ofLogged (logged : Logged (Except Problem α)) :
    Answers (Task.ofLogged logged) workspace logged.value :=
  Answers.afterLogging logged.log (Answers.ofExcept logged.value)

/-- A task that replaces the workspace and gives a logged value does both, and writes to the log. -/
theorem run_applying (after : Workspace) (logged : Logged (Except Problem α)) (session : Session) :
    (do Task.setWorkspace after; Task.ofLogged logged : Task α).run session =
      (logged.value, { session with workspace := after, log := session.log ++ logged.log }) := by
  rcases logged with ⟨lines, problem | value⟩ <;> rfl

/-- A task that a problem of its start ends before it changes anything, and that comes to a value
otherwise. -/
structure Follows (task : Task α) (workspace : Workspace) (start : Except Problem β) : Prop where
  /-- A problem of the start ends it. -/
  stops : ∀ problem, start = .error problem → task.Answers workspace (.error problem)
  /-- Otherwise it comes to a value. -/
  completes : ∀ value, start = .ok value → ∀ session, session.workspace = workspace →
    ∃ result after, task.run session = (.ok result, after)

/-- A task that only looks at the workspace can come before one that follows the same start. -/
theorem Answers.follows {start : Except Problem β} {task : Task α} {result : β → α}
    (answers : task.Answers workspace (start >>= fun value => .ok (result value)))
    {next : α → Task γ} (further : ∀ value, (next value).Follows workspace start) :
    (task >>= next).Follows workspace start := by
  constructor
  · rintro problem rfl
    exact Answers.stop answers next
  · rintro value rfl session here
    obtain ⟨lines, ran⟩ := answers session here
    rw [run_bind, ran]
    exact (further (result value)).completes value rfl
      { session with log := session.log ++ lines } here

/-- What a task that follows a start comes to may be changed. -/
theorem Follows.returning {start : Except Problem β} {task : Task α}
    (follows : task.Follows workspace start) (change : α → γ) :
    (task >>= fun value => Pure.pure (change value)).Follows workspace start := by
  constructor
  · intro problem failed
    exact (follows.stops problem failed).stop _
  · intro value known session here
    obtain ⟨result, after, ran⟩ := follows.completes value known session here
    rw [run_bind, ran]
    exact ⟨change result, after, rfl⟩

end Task

/-- A computation has a problem when its first step has one or when what is left of it has. -/
theorem bind_error_iff {α β : Type} {answer : Except Problem α} {next : α → Except Problem β}
    {problem : Problem} :
    answer >>= next = .error problem ↔
      answer = .error problem ∨ ∃ value, answer = .ok value ∧ next value = .error problem := by
  cases answer <;> simp [Bind.bind, Except.bind]

section Loading

variable (surroundings : Surroundings) (invocation : Invocation) (input : Input)
  (workspace : Workspace)

/-- The settings that an invocation loads for an input, before they are checked. -/
def settingsOf : Except Problem Settings := do
  let settings ← (loadDocument invocation (workspace.host surroundings.userDir)
    (searchDir workspace input.path)).value
  match invocation.ruleSet with
  | some name => settings.withRuleSet name
  | none => return settings

/-- The settings that an invocation loads for an input, when they have no flaw. -/
def checkedSettingsOf : Except Problem Settings := do
  let settings ← settingsOf surroundings invocation input workspace
  if settings.validate.isEmpty then return settings
  else throw (flawProblem settings.validate)

/-- The files that an invocation selects under settings. -/
def filesOf (settings : Settings) : Except Problem (List String) :=
  (Run.selectInputs workspace settings (input.runOptions none) input.path).value

/-- The settings of an invocation and the files that it processes. -/
def inputsOf : Except Problem (Settings × List String) := do
  let settings ← checkedSettingsOf surroundings invocation input workspace
  let files ← filesOf input workspace settings
  return (settings, files)

end Loading

/-- Inputs are not found when the settings have a problem or the selection of files has one. -/
theorem inputsOf_error_iff {surroundings : Surroundings} {invocation : Invocation} {input : Input}
    {workspace : Workspace} {problem : Problem} :
    inputsOf surroundings invocation input workspace = .error problem ↔
      checkedSettingsOf surroundings invocation input workspace = .error problem ∨
        ∃ settings, checkedSettingsOf surroundings invocation input workspace = .ok settings ∧
          filesOf input workspace settings = .error problem := by
  unfold inputsOf
  rw [bind_error_iff]
  refine or_congr_right (exists_congr fun settings => and_congr_right fun _ => ?_)
  rw [bind_error_iff]
  constructor
  · rintro (failed | ⟨files, -, found⟩)
    · exact failed
    · contradiction
  · exact Or.inl

section Looking

variable (surroundings : Surroundings) (invocation : Invocation) (input : Input)
  (workspace : Workspace)

/-- Loading settings answers with the settings of the invocation. -/
theorem loadSettings_answers :
    (loadSettings surroundings invocation input.path).Answers workspace
      (settingsOf surroundings invocation input workspace) := by
  unfold loadSettings settingsOf
  apply Task.Answers.looking
  apply (Task.Answers.ofLogged _).bind
  intro settings
  cases invocation.ruleSet with
  | none => exact Task.Answers.pure settings
  | some name => exact Task.Answers.ofExcept _

/-- Loading settings to be checked answers with the checked settings of the invocation. -/
theorem loadValidSettings_answers :
    (loadValidSettings surroundings invocation input.path).Answers workspace
      (checkedSettingsOf surroundings invocation input workspace) := by
  unfold loadValidSettings checkedSettingsOf
  apply (loadSettings_answers surroundings invocation input workspace).bind
  intro settings
  split_ifs
  · exact Task.Answers.pure settings
  · exact Task.Answers.ofExcept (.error _)

/-- What a command that lints keeps of a result. -/
def LintChoices.kept (choices : LintChoices) (result : RunResult) : RunResult :=
  match choices.severity with
  | some minimum => result.retainSeverity minimum
  | none => result

/-- What linting files under settings comes to. -/
def lintedOf (choices : LintChoices) (found : Settings × List String) : RunResult :=
  let linter := (surroundings.linter found.1 (input.runOptions (some choices))).value
  let run := linter.lintFiles workspace surroundings.arrival (workspace.isFile input.path) found.2
  choices.kept (linter.describe input.path run.result)

/-- Linting leaves the workspace as it is, and has the inputs that formatting has. The choices of a
command that lints name no patterns, so both select the same files. -/
theorem lintTask_answers (choices : LintChoices) :
    (lintTask surroundings invocation input choices).Answers workspace
      (inputsOf surroundings invocation input workspace >>= fun found =>
        .ok (lintedOf surroundings input workspace choices found)) := by
  unfold lintTask inputsOf
  rw [bind_assoc]
  apply (loadValidSettings_answers surroundings invocation input workspace).bind
  intro settings
  apply Task.Answers.afterLogging
  apply Task.Answers.looking
  let linter := (surroundings.linter settings (input.runOptions (some choices))).value
  have linted : (Task.ofLogged
      (linter.lintPath workspace surroundings.arrival input.path)).Answers workspace _ :=
    Task.Answers.ofLogged _
  rw [Run.Linter.lintPath_value] at linted
  have kept (result : RunResult) :
      (match choices.severity with
        | some minimum => pure (result.retainSeverity minimum)
        | none => pure result : Task RunResult).Answers workspace (.ok (choices.kept result)) := by
    unfold LintChoices.kept
    cases choices.severity with
    | none => exact Task.Answers.pure result
    | some minimum => exact Task.Answers.pure (result.retainSeverity minimum)
  have whole := linted.bind kept
  rw [bind_assoc] at whole ⊢
  exact whole

/-- Formatting comes to what its files come to, once its settings are loaded. -/
theorem formatTask_run (dryRun : Bool) {session : Session}
    (here : session.workspace = workspace) :
    ∃ lines, (formatTask surroundings invocation input dryRun).run session =
      match checkedSettingsOf surroundings invocation input workspace with
      | .error problem => (.error problem, { session with log := session.log ++ lines })
      | .ok settings =>
        let whole := Run.Formatter.formatPath ⟨settings, input.runOptions none, dryRun⟩ workspace
          surroundings.arrival input.path
        (whole.2.value, { session with workspace := whole.1, log := session.log ++ lines }) := by
  obtain ⟨lines, loaded⟩ :=
    loadValidSettings_answers surroundings invocation input workspace session here
  unfold formatTask
  rw [Task.run_bind, loaded]
  cases checkedSettingsOf surroundings invocation input workspace with
  | error problem => exact ⟨lines, rfl⟩
  | ok settings =>
    subst here
    let formatter : Run.Formatter := ⟨settings, input.runOptions none, dryRun⟩
    let whole := formatter.formatPath session.workspace surroundings.arrival input.path
    refine ⟨lines ++ whole.2.log, ?_⟩
    rw [← List.append_assoc]
    exact Task.run_applying whole.1 whole.2 _

/-- Formatting comes to a result when its inputs are found, and leaves the workspace as it is when
they are not. -/
theorem formatTask_follows (dryRun : Bool) :
    (formatTask surroundings invocation input dryRun).Follows workspace
      (inputsOf surroundings invocation input workspace) := by
  have ends (settings : Settings) := Run.Formatter.formatPath_value
    ⟨settings, input.runOptions none, dryRun⟩ workspace surroundings.arrival input.path
  constructor
  · intro problem failed session here
    obtain ⟨lines, ran⟩ := formatTask_run surroundings invocation input workspace dryRun here
    refine ⟨lines, ran.trans ?_⟩
    rcases inputsOf_error_iff.mp failed with unloaded | ⟨settings, loaded, selected⟩
    · rw [unloaded]
    · have kept := Run.Formatter.formatPath_workspace ⟨settings, input.runOptions none, dryRun⟩
        workspace surroundings.arrival input.path selected
      have value := ends settings
      change _ = filesOf input workspace settings >>= _ at value
      rw [selected] at value
      simp only [loaded, kept, value, here]
      rfl
  · intro found known session here
    obtain ⟨lines, ran⟩ := formatTask_run surroundings invocation input workspace dryRun here
    rw [ran]
    unfold inputsOf at known
    cases loaded : checkedSettingsOf surroundings invocation input workspace with
    | error cause =>
      rw [loaded] at known
      contradiction
    | ok settings =>
      have value := ends settings
      change _ = filesOf input workspace settings >>= _ at value
      rw [loaded] at known
      cases selected : filesOf input workspace settings with
      | error cause => simp [selected, Bind.bind, Except.bind] at known
      | ok files =>
        simp only [value, selected]
        exact ⟨_, _, rfl⟩

/-- Linting first stops where formatting would stop, and changes nothing that formatting sees. -/
theorem bothTask_follows (choices : LintChoices) (dryRun : Bool) :
    Task.Follows (do
        let linted ← lintTask surroundings invocation input choices
        let formatted ← formatTask surroundings invocation input dryRun
        return (linted.merge formatted).setMetadata "mode" (.str "both"))
      workspace (inputsOf surroundings invocation input workspace) := by
  apply (lintTask_answers surroundings invocation input workspace choices).follows
  intro linted
  exact (formatTask_follows surroundings invocation input workspace dryRun).returning
    fun formatted => (linted.merge formatted).setMetadata "mode" (.str "both")

end Looking

end Command

end CfmlTidy
