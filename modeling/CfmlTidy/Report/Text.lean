import CfmlTidy.Report.Basic

/-!
# The text report

Violations under the name of their file, files in the order of their first violation and
violations of a file by place; then changes, errors, warnings and a summary line.
-/

namespace CfmlTidy.Report.Text

/-- The distinct texts of a list in the order of their first occurrence. -/
def distinct : List String → List String
  | [] => []
  | text :: rest => text :: (distinct rest).filter (· != text)

/-- Order of violations by line and column. -/
def placeLe (left right : Violation) : Bool :=
  left.line < right.line || (left.line == right.line && left.column ≤ right.column)

/-- The violations of a file by place; those at one place keep their order. -/
def ofFile (violations : List Violation) (file : String) : List Violation :=
  (violations.filter fun violation => violation.file == file).mergeSort placeLe

/-- Violations grouped by file. -/
def groups (violations : List Violation) : List (String × List Violation) :=
  (distinct (violations.map (·.file))).map fun file => (file, ofFile violations file)

/-- The color of a severity. -/
def severityStyle : Severity → Style
  | .error => .red
  | .warning => .yellow
  | .info => .cyan

/-- The lines of a text, each ended by a newline that may follow a carriage return; text after the
last newline is a line when there is any. -/
def endedLines (text : List Char) : List (List Char) :=
  let pieces := CfmlTidy.Text.splitOn '\n' text
  (pieces.dropLast.map CfmlTidy.Text.stripReturn) ++
    (pieces.getLast?.toList.filter (!·.isEmpty))

/-- The rows of a violation: what is wrong, and the source around it. -/
def violationRows (colors : Bool) (violation : Violation) : List String :=
  ("  " ++ toString violation.line ++ ":" ++ toString violation.column ++ "  " ++
    paint colors (severityStyle violation.severity) violation.severity.name ++ "  " ++
    violation.message ++ "  " ++ paint colors .dim ("[" ++ violation.ruleId ++ "]")) ::
  (match violation.snippet with
  | none => []
  | some snippet =>
    (endedLines snippet.toList).map fun line => "      " ++ String.ofList line)

/-- The rows of a file: its name, its violations and an empty row. -/
def fileRows (colors : Bool) (group : String × List Violation) : List String :=
  paint colors .bold group.1 :: group.2.flatMap (violationRows colors) ++ [""]

/-- The rows of a list of messages under a title. -/
def messageRows (colors : Bool) (title icon : String) (style : Style) (messages : List String) :
    List String :=
  if messages.isEmpty then []
  else
    paint colors .bold title ::
      messages.map (fun message => "  " ++ paint colors style icon ++ " " ++ message) ++ [""]

/-- The rows of the changes of formatting. -/
def changeRows (colors : Bool) (changes : List FormattingChange) : List String :=
  if changes.isEmpty then []
  else
    paint colors .bold "Formatting changes:" ::
      changes.map (fun change =>
        "  " ++ change.file ++ " (lines " ++ toString change.startLine ++ "-" ++
          toString change.endLine ++ "): " ++ change.description) ++ [""]

/-- The summary row and, when asked for, the use of parsers. -/
def summaryRows (colors : Bool) (verbose : Nat) (result : RunResult) : List String :=
  let stats := result.stats
  let status :=
    if result.isFailure false then paint colors .red "✗" else paint colors .green "✓"
  (status ++ " Summary: " ++ toString stats.filesProcessed ++ " files processed, " ++
    toString stats.totalViolations ++ " violations (" ++ toString stats.errorCount ++ " errors, " ++
    toString stats.warningCount ++ " warnings, " ++ toString stats.infoCount ++ " info), " ++
    toString stats.formattingChanges ++ " formatting changes in " ++
    toString stats.executionTime ++ " ms") ::
  (if 0 < verbose && !stats.parserUsage.isEmpty then
    ["Parser usage: " ++ CfmlTidy.Text.joinStrings ", "
      (stats.parserUsage.map fun entry => entry.1 ++ "=" ++ toString entry.2)]
  else [])

/-- The rows of the report. -/
def rows (colors : Bool) (verbose : Nat) (result : RunResult) : List String :=
  (groups result.violations).flatMap (fileRows colors) ++
    changeRows colors result.changes ++
    messageRows colors "Errors:" "✗" .red result.errors ++
    messageRows colors "Warnings:" "⚠" .yellow result.warnings ++
    summaryRows colors verbose result

/-- The text report. -/
def render (colors : Bool) (verbose : Nat) (result : RunResult) : String :=
  String.join ((rows colors verbose result).map (· ++ "\n"))

end CfmlTidy.Report.Text
