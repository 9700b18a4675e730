import CfmlTidy.Run.Coordinator
import CfmlTidy.Run.Input

/-!
# Linting

Reads every file of a run, routes it to a parser and applies the active rules. What goes wrong
with one file is recorded in the result and does not stop the run.
-/

namespace CfmlTidy.Run

/-- Everything that linting needs beside the files. -/
structure Linter where
  /-- The settings of the run. -/
  settings : Settings
  /-- What the caller chose. -/
  options : RunOptions
  /-- The script engine for the parser that validates with one. -/
  script : Option ScriptEngine
  /-- The active rules in order. -/
  rules : List Rule
  /-- How a parser breaks down on a content in place of an answer, with the message it leaves. A
  script engine that is plugged in may do so. -/
  breakdown? : Backend → List Char → Option (Option String)

namespace Linter

/-- The linter of settings and options, with its log. None of its parsers breaks down. -/
def ofSettings [Launcher] (settings : Settings) (options : RunOptions) : Logged Linter :=
  let script := ScriptEngine.ofCommand? settings.engineCommand
  let rules := options.rules.rules settings
  ⟨(script.map fun engine => ⟨.debug, "Using external engine: " ++ engine.name⟩).toList ++
      [⟨.debug, toString rules.length ++ " rules active"⟩],
    ⟨settings, options, script, rules, fun _ _ => none⟩⟩

/-- The tag of the parser for a content. -/
def parserTag (linter : Linter) (content : List Char) : String :=
  linter.options.mode.select content linter.settings.primaryParser linter.settings.fallbackParser

/-- The violations of a parsed file, with the source around them when asked for. -/
def violationsOf (linter : Linter) (snippets : Bool) (parsed : Parsed) : List Violation :=
  if linter.settings.lintingEnabled then
    let found := Rule.analyze linter.rules (.ofParsed parsed linter.settings)
    if snippets then found.map (Snippet.attach (Text.splitLines parsed.content)) else found
  else []

/-- The partial result of a parsed file. -/
def resultOf (linter : Linter) (snippets : Bool) (backend : Backend) (parsed : Parsed) :
    RunResult :=
  (RunResult.empty.addViolations (linter.violationsOf snippets parsed)).updateStats
    fun stats => stats.countFile.countParser backend.tag

/-- The partial result of a content that a parser answers for. -/
def answerOf (linter : Linter) (snippets : Bool) (backend : Backend) (file : String)
    (content : List Char) : RunResult :=
  match backend.parse linter.script file content with
  | .error error =>
    RunResult.empty.addError ("Parse error in " ++ file ++ ": " ++ error.message)
  | .ok parsed => linter.resultOf snippets backend parsed

/-- Lint a content that was read from a file, unless its parser breaks down. -/
def lintContent (linter : Linter) (snippets : Bool) (file : String) (content : List Char) :
    Logged (Except (Option String) RunResult) :=
  match Backend.ofTag? (linter.parserTag content) with
  | none => .quietly (.ok (RunResult.empty.addError ("No parser available for: " ++ file)))
  | some backend =>
    .noting .debug ("Parsing " ++ file ++ " with " ++ backend.tag)
      (match linter.breakdown? backend content with
      | some crash => .error crash
      | none => .ok (linter.answerOf snippets backend file content))

/-- Lint a file. -/
def lintFile (linter : Linter) (workspace : Workspace) (snippets : Bool) (file : String) :
    Outcome :=
  if isTooLarge workspace linter.settings file then
    ⟨file, [⟨.warn, "Skipping " ++ file ++ ": larger than parser.maxFileSize"⟩],
      .ok (RunResult.empty.addWarning (tooLargeText file))⟩
  else
    let reading := readDecoded workspace linter.settings file
    match reading.value with
    | .error cause =>
      ⟨file, reading.log, .ok (RunResult.empty.addError (unreadableText file cause))⟩
    | .ok (content, _) =>
      let linted := linter.lintContent snippets file content
      ⟨file, reading.log ++ linted.log, linted.value⟩

/-- Lint files in a run; `arrival` is the order in which several workers finish. -/
def lintFiles (linter : Linter) (workspace : Workspace)
    (arrival : List Outcome → List Outcome) (snippets : Bool) (files : List String) : Aggregate :=
  Coordinator.run ⟨linter.options.workers linter.settings files.length, "lint", arrival⟩
    (files.map (linter.lintFile workspace snippets))

/-- State the facts of a lint run. -/
def describe (linter : Linter) (root : String) (result : RunResult) : RunResult :=
  ((result.setMetadata "mode" (.str "lint")).setMetadata "inputPath" (.str root)).setMetadata
    "rules" (.nat linter.rules.length)

/-- The last line of a lint run. -/
def closingLine (result : RunResult) : LogLine :=
  ⟨.info, "Linted " ++ toString result.stats.filesProcessed ++ " files: " ++
    toString result.violations.length ++ " violations, " ++ toString result.errors.length ++
    " errors"⟩

/-- Lint a file or a directory. The source around violations is only shown for a single file. -/
def lintPath (linter : Linter) (workspace : Workspace)
    (arrival : List Outcome → List Outcome) (root : String) :
    Logged (Except Problem RunResult) :=
  let selected := selectInputs workspace linter.settings linter.options root
  match selected.value with
  | .error problem => ⟨selected.log, .error problem⟩
  | .ok files =>
    let run := linter.lintFiles workspace arrival (workspace.isFile root) files
    let result := linter.describe root run.result
    ⟨selected.log ++
        [⟨.info, "Linting " ++ toString files.length ++ " files under " ++ root⟩,
          ⟨.debug, "Parser timeout of " ++ Json.intText linter.settings.parserTimeout ++
            "ms is advisory and not enforced"⟩] ++
        run.log ++ [closingLine result],
      .ok result⟩

end Linter

end CfmlTidy.Run
