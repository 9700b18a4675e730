import Mathlib
import CfmlTidy.Proofs.Command.Inputs
import CfmlTidy.Proofs.Run.Validated
import CfmlTidy.Proofs.Settings.Acceptance

/-!
# Problems that stop a command before it writes

A command that formats can fail at its report format, its settings document, its rule set, its
settings, its root or its patterns. `Fatal` says when, in terms of what the command line says and
what the workspace holds. The last five are all that keeps inputs from being found, so a command
that any of them stops has changed no file.
-/

namespace CfmlTidy

namespace Settings

variable {host : Host} {path : String} {problem : Problem}

/-- Loading a document fails when it is there, can be read, and holds no document. -/
theorem Host.loadFrom_error_iff :
    (host.loadFrom path).value = .error problem ↔
      host.exist path = true ∧
        ∃ text, host.read path = .ok text ∧ parseDocument path text = .error problem := by
  unfold Host.loadFrom
  cases present : host.exist path with
  | false => simp [Logged.noting]
  | true =>
    cases reading : host.read path with
    | error cause => simp [Logged.noting]
    | ok text =>
      cases parsed : parseDocument path text with
      | error cause => simp [parsed, Logged.quietly]
      | ok document => simp [parsed, Logged.noting]

/-- A rule set is unknown when it is not built in and the document has no entry for it. -/
theorem withRuleSet_error_iff {settings : Settings} {name : String} :
    (∃ problem, settings.withRuleSet name = .error problem) ↔
      name ∉ builtinRuleSets ∧
        ∀ fields, settings.get? ("customRules." ++ name) ≠ some (.obj fields) := by
  have refused : (∃ problem, settings.withRuleSet name = .error problem) ↔
      ¬ ∃ result, settings.withRuleSet name = .ok result := by
    cases settings.withRuleSet name <;> simp
  rw [refused, withRuleSet_accepted_iff, get?_customRules]
  simp only [not_or, not_exists, ne_eq]

end Settings

namespace Command

/-- The settings document that an invocation loads, and its text. -/
structure Loads (invocation : Invocation) (host : Settings.Host) (search : Option String)
    (path text : String) : Prop where
  /-- A document is loaded at all. -/
  allowed : invocation.noConfig = false
  /-- It is named, or it is the first that exists where one is looked for. -/
  chosen : invocation.config.or ((host.candidates search).find? host.exist) = some path
  /-- It exists. -/
  present : host.exist path = true
  /-- It is a text. -/
  readable : host.read path = .ok text

/-- With settings allowed, the document is the one that is named, else the first candidate that is
there, else none. -/
theorem loadDocument_value {invocation : Invocation} (allowed : invocation.noConfig = false)
    (host : Settings.Host) (search : Option String) :
    (loadDocument invocation host search).value =
      match invocation.config.or ((host.candidates search).find? host.exist) with
      | some path => (host.loadFrom path).value
      | none => .ok host.defaults := by
  unfold loadDocument
  rw [allowed, if_neg Bool.false_ne_true]
  cases invocation.config with
  | some path => rfl
  | none =>
    unfold Settings.Host.load
    cases (host.candidates search).find? host.exist <;> rfl

/-- Loading fails when the document that is loaded is malformed. -/
theorem loadDocument_error_iff {invocation : Invocation} {host : Settings.Host}
    {search : Option String} {problem : Problem} :
    (loadDocument invocation host search).value = .error problem ↔
      ∃ path text, Loads invocation host search path text ∧
        Settings.parseDocument path text = .error problem := by
  cases allowed : invocation.noConfig with
  | true =>
    have defaults : (loadDocument invocation host search).value = .ok host.defaults := by
      rw [loadDocument, allowed, if_pos rfl]
      rfl
    constructor
    · intro failed
      rw [defaults] at failed
      contradiction
    · rintro ⟨path, text, loads, -⟩
      have loaded := loads.allowed
      rw [allowed] at loaded
      contradiction
  | false =>
    rw [loadDocument_value allowed]
    constructor
    · intro failed
      cases chosen : invocation.config.or ((host.candidates search).find? host.exist) with
      | none =>
        rw [chosen] at failed
        contradiction
      | some path =>
        rw [chosen] at failed
        obtain ⟨present, text, readable, malformed⟩ := Settings.Host.loadFrom_error_iff.mp failed
        exact ⟨path, text, ⟨allowed, chosen, present, readable⟩, malformed⟩
    · rintro ⟨path, text, loads, malformed⟩
      rw [loads.chosen]
      exact Settings.Host.loadFrom_error_iff.mpr ⟨loads.present, text, loads.readable, malformed⟩

/-- What stops a command that formats. -/
inductive Fatal (surroundings : Surroundings) (invocation : Invocation) (input : Input)
    (workspace : Workspace) : Prop where
  /-- The report format is unknown. -/
  | format (unknown : Report.Format.ofName? input.format = none)
  /-- The settings document is malformed. -/
  | document {path text : String} {problem : Problem}
    (loads : Loads invocation (workspace.host surroundings.userDir)
      (searchDir workspace input.path) path text)
    (malformed : Settings.parseDocument path text = .error problem)
  /-- The rule set is neither built in nor an entry of the settings. -/
  | ruleSet {settings : Settings} {name : String}
    (loaded : (loadDocument invocation (workspace.host surroundings.userDir)
      (searchDir workspace input.path)).value = .ok settings)
    (chosen : invocation.ruleSet = some name) (foreign : name ∉ Settings.builtinRuleSets)
    (unlisted : ∀ fields, settings.get? ("customRules." ++ name) ≠ some (.obj fields))
  /-- The settings have a flaw. -/
  | flaw {settings : Settings}
    (loaded : settingsOf surroundings invocation input workspace = .ok settings)
    (flawed : settings.validate ≠ [])
  /-- The root does not exist. -/
  | root (missing : workspace.holds input.path = false)
  /-- The root is a directory, and a pattern is no glob. -/
  | pattern {settings : Settings} {pattern : String} {fault : Glob.Fault}
    (loaded : settingsOf surroundings invocation input workspace = .ok settings)
    (present : workspace.holds input.path = true) (directory : workspace.isFile input.path = false)
    (listed : pattern ∈ settings.includePatterns ++ input.includes ++
      (settings.excludePatterns ++ input.excludes))
    (wildcard : Selection.hasWildcard pattern = true)
    (unread : Glob.read pattern = .error fault)

section Causes

variable {surroundings : Surroundings} {invocation : Invocation} {input : Input}
  {workspace : Workspace} {settings : Settings}

/-- Selecting files fails when the root is missing, or is a directory and a pattern is no glob. -/
theorem filesOf_error_iff :
    (∃ problem, filesOf input workspace settings = .error problem) ↔
      workspace.isFile input.path = false ∧
        ((∃ pattern ∈ settings.includePatterns ++ input.includes ++
              (settings.excludePatterns ++ input.excludes),
            Selection.hasWildcard pattern = true ∧
              ∃ fault, Glob.read pattern = .error fault) ∨
          workspace.holds input.path = false) := by
  rw [← Selection.Filter.ofTexts_error_iff settings.baseDir]
  have options : (input.runOptions none).includes = input.includes ∧
    (input.runOptions none).excludes = input.excludes := ⟨rfl, rfl⟩
  unfold filesOf Run.selectInputs Selection.select
  rw [options.1, options.2]
  cases workspace.isFile input.path with
  | true => simp [Logged.quietly]
  | false =>
    cases Selection.Filter.ofTexts (settings.includePatterns ++ input.includes)
        (settings.excludePatterns ++ input.excludes) settings.baseDir with
    | error problem => simp [Logged.quietly]
    | ok filter =>
      cases workspace.holds input.path <;> simp [Logged.quietly, Logged.noting]

/-- What a workspace does not hold is no file of it. -/
theorem isFile_of_missing {path : String} (missing : workspace.holds path = false) :
    workspace.isFile path = false := by
  unfold Workspace.isFile
  unfold Workspace.holds at missing
  cases found : workspace.find path with
  | error cause => rfl
  | ok place =>
    rw [found] at missing
    contradiction

/-- Settings that pass the check are those that were loaded. -/
theorem settingsOf_of_checked
    (checked : checkedSettingsOf surroundings invocation input workspace = .ok settings) :
    settingsOf surroundings invocation input workspace = .ok settings := by
  unfold checkedSettingsOf at checked
  cases loaded : settingsOf surroundings invocation input workspace with
  | error problem =>
    rw [loaded] at checked
    contradiction
  | ok others =>
    rw [loaded] at checked
    change (if others.validate.isEmpty then pure others
      else throw (flawProblem others.validate) : Except Problem Settings) = .ok settings at checked
    split_ifs at checked
    exact checked

/-- The inputs of a command cannot be found for one of the reasons that stop it. -/
theorem fatal_of_inputsOf {problem : Problem}
    (failed : inputsOf surroundings invocation input workspace = .error problem) :
    Fatal surroundings invocation input workspace := by
  rcases inputsOf_error_iff.mp failed with unchecked | ⟨settings, checked, unselected⟩
  · rcases bind_error_iff.mp unchecked with unloaded | ⟨settings, loaded, refused⟩
    · rcases bind_error_iff.mp unloaded with unread | ⟨settings, read, unchosen⟩
      · obtain ⟨path, text, loads, malformed⟩ := loadDocument_error_iff.mp unread
        exact Fatal.document loads malformed
      · cases chosen : invocation.ruleSet with
        | none =>
          rw [chosen] at unchosen
          contradiction
        | some name =>
          rw [chosen] at unchosen
          obtain ⟨foreign, unlisted⟩ := Settings.withRuleSet_error_iff.mp ⟨problem, unchosen⟩
          exact Fatal.ruleSet read chosen foreign unlisted
    · apply Fatal.flaw loaded
      intro unflawed
      rw [unflawed] at refused
      contradiction
  · have loaded := settingsOf_of_checked checked
    obtain ⟨directory, cause⟩ := filesOf_error_iff.mp ⟨problem, unselected⟩
    cases present : workspace.holds input.path with
    | false => exact Fatal.root present
    | true =>
      rw [present] at cause
      obtain ⟨pattern, listed, wildcard, fault, unread⟩ := cause.resolve_right nofun
      exact Fatal.pattern loaded present directory listed wildcard unread

/-- What stops a command is its report format, or keeps its inputs from being found. -/
theorem inputsOf_of_fatal (fatal : Fatal surroundings invocation input workspace) :
    Report.Format.ofName? input.format = none ∨
      ∃ problem, inputsOf surroundings invocation input workspace = .error problem := by
  cases fatal with
  | format unknown => exact Or.inl unknown
  | @document path text problem loads malformed =>
    have failed := loadDocument_error_iff.mpr ⟨path, text, loads, malformed⟩
    have unloaded : settingsOf surroundings invocation input workspace = .error problem :=
      bind_error_iff.mpr (Or.inl failed)
    exact Or.inr ⟨problem, inputsOf_error_iff.mpr (Or.inl (bind_error_iff.mpr (Or.inl unloaded)))⟩
  | @ruleSet settings name loaded chosen foreign unlisted =>
    obtain ⟨problem, failed⟩ := Settings.withRuleSet_error_iff.mpr ⟨foreign, unlisted⟩
    have unloaded : settingsOf surroundings invocation input workspace = .error problem := by
      refine bind_error_iff.mpr (Or.inr ⟨settings, loaded, ?_⟩)
      rw [chosen]
      exact failed
    exact Or.inr ⟨problem, inputsOf_error_iff.mpr (Or.inl (bind_error_iff.mpr (Or.inl unloaded)))⟩
  | @flaw settings loaded flawed =>
    refine Or.inr ⟨flawProblem settings.validate, inputsOf_error_iff.mpr (Or.inl ?_)⟩
    refine bind_error_iff.mpr (Or.inr ⟨settings, loaded, ?_⟩)
    rw [if_neg (by simpa using flawed)]
    rfl
  | root missing =>
    cases checked : checkedSettingsOf surroundings invocation input workspace with
    | error problem => exact Or.inr ⟨problem, inputsOf_error_iff.mpr (Or.inl checked)⟩
    | ok settings =>
      obtain ⟨problem, failed⟩ := filesOf_error_iff.mpr
        ⟨isFile_of_missing missing, Or.inr missing⟩
      exact Or.inr ⟨problem, inputsOf_error_iff.mpr (Or.inr ⟨_, checked, failed⟩)⟩
  | @pattern settings pattern fault loaded present directory listed wildcard unread =>
    cases checked : checkedSettingsOf surroundings invocation input workspace with
    | error problem => exact Or.inr ⟨problem, inputsOf_error_iff.mpr (Or.inl checked)⟩
    | ok others =>
      have same := (settingsOf_of_checked checked).symm.trans loaded
      obtain rfl := Except.ok.inj same
      obtain ⟨problem, failed⟩ := filesOf_error_iff.mpr
        ⟨directory, Or.inl ⟨pattern, listed, wildcard, fault, unread⟩⟩
      exact Or.inr ⟨problem, inputsOf_error_iff.mpr (Or.inr ⟨_, checked, failed⟩)⟩

end Causes

/-- The input of a command that formats. -/
def Action.formats? : Action → Option Input
  | .format input _ => some input
  | .both input _ _ => some input
  | _ => none

section Executing

variable {surroundings : Surroundings} {invocation : Invocation} {input : Input}
  {workspace : Workspace}

/-- A command that formats reports what a task comes to that its inputs can stop. -/
theorem task_of_formats (formats : invocation.action.formats? = some input)
    (surroundings : Surroundings) (workspace : Workspace) :
    ∃ (ignore : Bool) (body : Task RunResult),
      task surroundings invocation = reporting invocation input ignore body ∧
        body.Follows workspace (inputsOf surroundings invocation input workspace) := by
  unfold task
  cases acted : invocation.action with
  | format other dryRun =>
    rw [acted] at formats
    obtain rfl := Option.some.inj formats
    exact ⟨_, _, rfl, formatTask_follows surroundings invocation other workspace dryRun⟩
  | both other choices dryRun =>
    rw [acted] at formats
    obtain rfl := Option.some.inj formats
    exact ⟨_, _, rfl, bothTask_follows surroundings invocation other workspace choices dryRun⟩
  | lint | rules | showSettings | checkSettings =>
    rw [acted] at formats
    contradiction

/-- A task that is stopped is not reported. -/
theorem reporting_stops {body : Task RunResult} (invocation : Invocation) (ignore : Bool)
    (stops : Report.Format.ofName? input.format = none ∨
      ∃ problem, body.Answers workspace (.error problem)) :
    ∃ problem, (reporting invocation input ignore body).Answers workspace (.error problem) := by
  unfold reporting
  have named : (Task.ofExcept (Report.Format.ofName input.format)).Answers workspace _ :=
    Task.Answers.ofExcept _
  cases known : Report.Format.ofName? input.format with
  | none =>
    have unknown : Report.Format.ofName input.format = .error (.format input.format) := by
      rw [Report.Format.ofName, known]
    rw [unknown] at named ⊢
    exact ⟨_, named.stop _⟩
  | some format =>
    rw [known] at stops
    obtain ⟨problem, stopped⟩ := stops.resolve_left (Option.some_ne_none format)
    have found : Report.Format.ofName input.format = .ok format := by
      rw [Report.Format.ofName, known]
    rw [found] at named ⊢
    exact ⟨problem, named.bind fun _ => stopped.stop _⟩

/-- A result that is printed ends a command with an exit code of at most one. -/
theorem reporting_code_le_one {body : Task RunResult} {format : Report.Format}
    {session after : Session} {result : RunResult} (invocation : Invocation) (ignore : Bool)
    (known : Report.Format.ofName? input.format = some format) (printed : input.output = none)
    (ran : body.run session = (.ok result, after)) :
    codeOf ((reporting invocation input ignore body).run session).1 ≤ 1 := by
  have found : Report.Format.ofName input.format = .ok format := by
    rw [Report.Format.ofName, known]
  have shown : ((emit invocation input format result).run after).1 = .ok () := by
    unfold emit
    rw [printed]
    rfl
  have start : (Task.ofExcept (.ok format)).run session = (.ok format, session) := rfl
  have code := codeOf_report invocation input format result ignore after
  rw [shown] at code
  unfold reporting
  rw [found, Task.run_bind, start]
  simp only [Task.run_bind body, ran]
  refine code.trans_le ?_
  unfold RunResult.exitCode
  split_ifs
  · exact le_refl 1
  · exact Nat.zero_le 1

/-- A command that formats finds all that can stop it before it writes: it then ends with exit code
two, prints no report, and every file is as it was. Unless the report goes to a file, nothing else
ends it with that exit code. -/
theorem fatal_before_writing (surroundings : Surroundings) (invocation : Invocation)
    (input : Input) (formats : invocation.action.formats? = some input) (workspace : Workspace) :
    (Fatal surroundings invocation input workspace →
      (execute surroundings invocation workspace).1 = 2 ∧
        (execute surroundings invocation workspace).2.workspace = workspace ∧
        (execute surroundings invocation workspace).2.stdout = "") ∧
    (input.output = none → (execute surroundings invocation workspace).1 = 2 →
      Fatal surroundings invocation input workspace) := by
  obtain ⟨ignore, body, whole, follows⟩ := task_of_formats formats surroundings workspace
  constructor
  · intro fatal
    have stops : Report.Format.ofName? input.format = none ∨
        ∃ problem, body.Answers workspace (.error problem) := by
      apply (inputsOf_of_fatal fatal).imp_right
      rintro ⟨problem, failed⟩
      exact ⟨problem, follows.stops problem failed⟩
    obtain ⟨problem, answers⟩ := reporting_stops invocation ignore stops
    obtain ⟨lines, ran⟩ := answers (Session.start workspace) rfl
    unfold execute
    rw [whole, ran]
    exact ⟨rfl, rfl, rfl⟩
  · intro printed ended
    by_contra unstopped
    cases known : Report.Format.ofName? input.format with
    | none => exact unstopped (Fatal.format known)
    | some format =>
      cases start : inputsOf surroundings invocation input workspace with
      | error problem => exact unstopped (fatal_of_inputsOf start)
      | ok found =>
        obtain ⟨result, after, ran⟩ :=
          follows.completes found start (Session.start workspace) rfl
        have low := reporting_code_le_one invocation ignore known printed ran
        rw [execute_code, whole] at ended
        omega

end Executing

/-- A directory with a page that is not in layout. -/
def untidy : Workspace :=
  ⟨[(["src"], .directory), (["src", "page.cfm"], .file [0x61, 0x20, 0x0A])], []⟩

/-- The directory, with a class that is not closed as a pattern. -/
def openInput : Input := ⟨"src", "text", none, none, ["[*"], []⟩

/-- Lint and format under the defaults. -/
def openInvocation : Invocation :=
  ⟨0, false, .auto, none, true, none, .both openInput ⟨.auto, none, none, false⟩ false⟩

/-- No settings of the user, and workers that finish in turn. -/
def plainSurroundings : Surroundings := ⟨none, id⟩

/-- The pattern stops the command, and the page keeps the blank at its end. -/
theorem fatal_before_writing_openClass :
    (execute plainSurroundings openInvocation untidy).1 = 2 ∧
      (execute plainSurroundings openInvocation untidy).2.workspace.read "src/page.cfm" =
        .ok [0x61, 0x20, 0x0A] := by
  have loaded : settingsOf plainSurroundings openInvocation openInput untidy =
    .ok (untidy.host none).defaults := rfl
  have listed : "[*" ∈ (untidy.host none).defaults.includePatterns ++ openInput.includes ++
      ((untidy.host none).defaults.excludePatterns ++ openInput.excludes) := by
    simp [openInput]
  have unread : Glob.read "[*" = .error .openClass := rfl
  have fatal : Fatal plainSurroundings openInvocation openInput untidy :=
    Fatal.pattern loaded (by decide +kernel) (by decide +kernel) listed (by decide +kernel) unread
  obtain ⟨code, kept, -⟩ :=
    (fatal_before_writing plainSurroundings openInvocation openInput rfl untidy).1 fatal
  have page : untidy.read "src/page.cfm" = .ok [0x61, 0x20, 0x0A] := rfl
  rw [kept]
  exact ⟨code, page⟩

end Command

end CfmlTidy
