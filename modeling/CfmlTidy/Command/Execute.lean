import CfmlTidy.Command.Invocation
import CfmlTidy.Command.Session
import CfmlTidy.Command.Shell
import CfmlTidy.Run.Format
import CfmlTidy.Run.Lint
import CfmlTidy.Settings.Validation

/-!
# Executing commands

Settings are loaded and checked before any file is touched, and the name of the report format is
read before that. A problem of the run as a whole is printed and ends the command with exit code
two; findings end it with exit code one. What programs do that a command starts is up to its
surroundings.
-/

namespace CfmlTidy.Command

/-- What a command depends on beside its words and its files. -/
structure Surroundings where
  /-- The directory of the settings of the user. -/
  userDir : Option String
  /-- The order in which several workers finish. -/
  arrival : List Run.Outcome → List Run.Outcome
  /-- How programs are started. -/
  [launcher : Launcher]

/-- The linter of settings and options; its script engine is started in the surroundings. -/
def Surroundings.linter (surroundings : Surroundings) (settings : Settings)
    (options : RunOptions) : Logged Run.Linter :=
  @Run.Linter.ofSettings surroundings.launcher settings options

/-- The exit code of a command that a problem ended. -/
def problemCode : Nat := 2

/-- The directory where a settings document is looked for first: the input, or the directory it
lies in when it is a file. -/
def searchDir (workspace : Workspace) (path : String) : Option String :=
  if workspace.isFile path then Path.parent? path else some path

/-- The settings document of an invocation. -/
def loadDocument (invocation : Invocation) (host : Settings.Host) (search : Option String) :
    Logged (Except Problem Settings) :=
  if invocation.noConfig then .quietly (.ok host.defaults)
  else
    match invocation.config with
    | some path => host.loadFrom path
    | none => host.load search

/-- The settings of an invocation for an input. -/
def loadSettings (surroundings : Surroundings) (invocation : Invocation) (path : String) :
    Task Settings := do
  let workspace ← Task.workspace
  let settings ← Task.ofLogged
    (loadDocument invocation (workspace.host surroundings.userDir) (searchDir workspace path))
  match invocation.ruleSet with
  | some name => Task.ofExcept (settings.withRuleSet name)
  | none => return settings

/-- The problem that flaws of settings make together. -/
def flawProblem (flaws : List Settings.Flaw) : Problem :=
  .settings (Text.joinStrings "; " (flaws.map (·.message)))

/-- The settings of an invocation for an input, when they have no flaw. -/
def loadValidSettings (surroundings : Surroundings) (invocation : Invocation) (path : String) :
    Task Settings := do
  let settings ← loadSettings surroundings invocation path
  if settings.validate.isEmpty then return settings
  else throw (flawProblem settings.validate)

/-- The options of a run. -/
def Input.runOptions (input : Input) (choices : Option LintChoices) : RunOptions where
  mode := (choices.map (·.mode)).getD .auto
  rules := (choices.bind (·.rules)).getD .empty
  maxThreads := input.maxThreads
  includes := input.includes
  excludes := input.excludes

/-- Lint the input. -/
def lintTask (surroundings : Surroundings) (invocation : Invocation) (input : Input)
    (choices : LintChoices) : Task RunResult := do
  let settings ← loadValidSettings surroundings invocation input.path
  let linter := surroundings.linter settings (input.runOptions (some choices))
  Task.logging linter.log
  let result ← Task.ofLogged
    (linter.value.lintPath (← Task.workspace) surroundings.arrival input.path)
  match choices.severity with
  | some minimum => return result.retainSeverity minimum
  | none => return result

/-- Format the input. -/
def formatTask (surroundings : Surroundings) (invocation : Invocation) (input : Input)
    (dryRun : Bool) : Task RunResult := do
  let settings ← loadValidSettings surroundings invocation input.path
  let formatter : Run.Formatter := ⟨settings, input.runOptions none, dryRun⟩
  let (after, run) := formatter.formatPath (← Task.workspace) surroundings.arrival input.path
  Task.setWorkspace after
  Task.ofLogged run

/-- Write a report to the file that was asked for, or print it. -/
def emit (invocation : Invocation) (input : Input) (format : Report.Format) (result : RunResult) :
    Task Unit := do
  match input.output with
  | none =>
    Task.print (Report.render format invocation.color.usesColors invocation.verbose result)
  | some path =>
    let report := Report.render format false invocation.verbose result
    match (← Task.workspace).write path (Encoding.Utf8.encode report.toList) with
    | .error cause => throw (.io cause.message)
    | .ok written =>
      Task.setWorkspace written
      Task.logging [⟨.info, "Report written to " ++ path⟩]

/-- Run a command that processes files: the format is read first, then the files are processed,
then the result is reported. -/
def reporting (invocation : Invocation) (input : Input) (ignoreViolations : Bool)
    (body : Task RunResult) : Task Nat := do
  let format ← Task.ofExcept (Report.Format.ofName input.format)
  let result ← body
  emit invocation input format result
  return result.exitCode ignoreViolations

/-- Show the settings found from a directory. -/
def showTask (surroundings : Surroundings) (invocation : Invocation) (directory : String)
    (json : Bool) : Task Nat := do
  let settings ← loadSettings surroundings invocation directory
  Task.print (if json then settings.exported ++ "\n" else settings.summary)
  return 0

/-- Check the settings found from a directory. -/
def checkTask (surroundings : Surroundings) (invocation : Invocation) (directory : String) :
    Task Nat := do
  let settings ← loadSettings surroundings invocation directory
  let flaws := settings.validate
  if flaws.isEmpty then
    Task.print "Configuration is valid\n"
    return 0
  else
    Task.complain (String.join (flaws.map fun flaw =>
      Report.errorText invocation.color.usesColors "Config" flaw.message none none))
    Task.print ("Configuration has " ++ toString flaws.length ++ " problem(s)\n")
    return problemCode

/-- The task of an invocation; it comes to an exit code. -/
def task (surroundings : Surroundings) (invocation : Invocation) : Task Nat :=
  match invocation.action with
  | .lint input choices =>
    reporting invocation input choices.ignoreViolations
      (lintTask surroundings invocation input choices)
  | .format input dryRun =>
    reporting invocation input false (formatTask surroundings invocation input dryRun)
  | .both input choices dryRun =>
    reporting invocation input choices.ignoreViolations do
      let linted ← lintTask surroundings invocation input choices
      let formatted ← formatTask surroundings invocation input dryRun
      return (linted.merge formatted).setMetadata "mode" (.str "both")
  | .rules => do
    Task.print (Rule.listing Rule.builtin)
    return 0
  | .showSettings directory json => showTask surroundings invocation directory json
  | .checkSettings directory => checkTask surroundings invocation directory

/-- Execute an invocation: its exit code and the session after it. -/
def execute (surroundings : Surroundings) (invocation : Invocation) (workspace : Workspace) :
    Nat × Session :=
  match (task surroundings invocation).run (Session.start workspace) with
  | (.ok code, session) => (code, session)
  | (.error problem, session) =>
    (problemCode,
      { session with
        stderr := session.stderr ++ Report.problemText invocation.color.usesColors problem })

/-- The lines of the log that an invocation shows. -/
def shownLog (invocation : Invocation) (session : Session) : List String :=
  (session.log.filter invocation.verbosity.shows).map (·.render)

end CfmlTidy.Command
