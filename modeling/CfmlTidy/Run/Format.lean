import CfmlTidy.Layout
import CfmlTidy.Run.Coordinator
import CfmlTidy.Run.Input

/-!
# Formatting

Normalizes the layout of every file of a run and writes it back in the encoding it was read in. A
file is written at most once, and only when its layout changes and its encoding can be reproduced.
A dry run writes nothing, and it reports changes without asking for the encoding.
-/

namespace CfmlTidy.Run

/-- Everything that formatting needs beside the files. -/
structure Formatter where
  /-- The settings of the run. -/
  settings : Settings
  /-- What the caller chose. -/
  options : RunOptions
  /-- Whether changes are only reported. -/
  dryRun : Bool

namespace Formatter

/-- The spaces in place of a tab; a negative setting counts as one. -/
def indent (formatter : Formatter) : Nat :=
  if formatter.settings.formatIndent < 0 then 1 else formatter.settings.formatIndent.toNat

/-- The change of a file. -/
def changeOf (file : String) (before after : List Char) : FormattingChange :=
  .whole file before after "formatting" "Normalized whitespace and line endings"

/-- A processed file that needs no more. -/
def processed : RunResult := RunResult.empty.updateStats (·.countFile)

/-- What is said of a file that cannot be written back in its encoding. -/
def irreproducibleText (file : String) : String :=
  "Not rewriting " ++ file ++ ": its encoding cannot be reproduced"

/-- Write a changed text back to its file. -/
def writeBack (workspace : Workspace) (file : String) (detection : Detection)
    (before after : List Char) : Workspace × Logged RunResult :=
  match detection.encode? after with
  | none => (workspace, .quietly (processed.addWarning (irreproducibleText file)))
  | some bytes =>
    match workspace.write file bytes with
    | .error cause =>
      (workspace,
        .quietly (processed.addError ("Failed to write " ++ file ++ ": " ++ cause.message)))
    | .ok written =>
      (written,
        .noting .debug ("Formatted " ++ file) (processed.addChange (changeOf file before after)))

/-- Format a text that was read from a file. -/
def formatContent (formatter : Formatter) (workspace : Workspace) (file : String)
    (content : List Char) (detection : Detection) : Workspace × Logged RunResult :=
  let formatted := Layout.format formatter.indent content
  if formatted = content then (workspace, .quietly processed)
  else if formatter.dryRun then
    (workspace,
      .noting .debug ("Formatted " ++ file) (processed.addChange (changeOf file content formatted)))
  else writeBack workspace file detection content formatted

/-- Format a file: the workspace after it, and what it came to. -/
def formatFile (formatter : Formatter) (workspace : Workspace) (file : String) :
    Workspace × Outcome :=
  if isTooLarge workspace formatter.settings file then
    (workspace, ⟨file, [], .ok (RunResult.empty.addWarning (tooLargeText file))⟩)
  else
    let reading := readDecoded workspace formatter.settings file
    match reading.value with
    | .error cause =>
      (workspace,
        ⟨file, reading.log, .ok (RunResult.empty.addError (unreadableText file cause))⟩)
    | .ok (content, detection) =>
      let (after, formatted) := formatter.formatContent workspace file content detection
      (after, ⟨file, reading.log ++ formatted.log, .ok formatted.value⟩)

/-- Format files one after the other. -/
def formatEach (formatter : Formatter) (workspace : Workspace) :
    List String → Workspace × List Outcome
  | [] => (workspace, [])
  | file :: rest =>
    let (next, outcome) := formatter.formatFile workspace file
    let (final, outcomes) := formatter.formatEach next rest
    (final, outcome :: outcomes)

/-- Format files in a run; `arrival` is the order in which several workers finish. -/
def formatFiles (formatter : Formatter) (workspace : Workspace)
    (arrival : List Outcome → List Outcome) (files : List String) : Workspace × Aggregate :=
  let (final, outcomes) := formatter.formatEach workspace files
  (final,
    Coordinator.run ⟨formatter.options.workers formatter.settings files.length, "format", arrival⟩
      outcomes)

/-- State the facts of a formatting run. -/
def describe (formatter : Formatter) (result : RunResult) : RunResult :=
  (result.setMetadata "mode" (.str "format")).setMetadata "dryRun" (.bool formatter.dryRun)

/-- Format a file or a directory. -/
def formatPath (formatter : Formatter) (workspace : Workspace)
    (arrival : List Outcome → List Outcome) (root : String) :
    Workspace × Logged (Except Problem RunResult) :=
  let selected := selectInputs workspace formatter.settings formatter.options root
  match selected.value with
  | .error problem => (workspace, ⟨selected.log, .error problem⟩)
  | .ok files =>
    let (final, run) := formatter.formatFiles workspace arrival files
    (final,
      ⟨selected.log ++
          [⟨.info, "Formatting " ++ toString files.length ++ " files under " ++ root⟩] ++ run.log,
        .ok (formatter.describe run.result)⟩)

end Formatter

end CfmlTidy.Run
