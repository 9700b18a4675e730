import CfmlTidy.Problem
import CfmlTidy.Report.Csv
import CfmlTidy.Report.Sarif
import CfmlTidy.Report.Text

/-!
# Rendering

A result in each of the report formats, and problems as they are shown to the user.
-/

namespace CfmlTidy.Report

/-- The format of a name, or the problem with it. -/
def Format.ofName (name : String) : Except Problem Format :=
  match ofName? name with
  | some format => .ok format
  | none => .error (.format name)

/-- The result as one JSON object. -/
def resultJson (result : RunResult) : Json :=
  .obj [("tool", .str toolName), ("version", .str toolVersion),
    ("statistics", result.stats.toJson),
    ("violations", .arr (result.violations.map violationJson)),
    ("formattingChanges", .arr (result.changes.map changeJson)),
    ("errors", .strs result.errors), ("warnings", .strs result.warnings),
    ("metadata", .obj result.metadata)]

/-- The most annotations that a code insights report holds. -/
def maxAnnotations : Nat := 1000

/-- The severity of an annotation. -/
def insightSeverity : Severity → String
  | .error => "HIGH"
  | .warning => "MEDIUM"
  | .info => "LOW"

/-- The annotation of a violation. -/
def annotationJson (violation : Violation) : Json :=
  .obj [("path", .str violation.file), ("line", .nat violation.line),
    ("message", .str violation.message), ("severity", .str (insightSeverity violation.severity)),
    ("type", .str "BUG"), ("externalId", .str violation.ruleId)]

/-- The result as a code insights report. -/
def insightsJson (result : RunResult) : Json :=
  let stats := result.stats
  .obj [("annotations", .arr ((result.violations.take maxAnnotations).map annotationJson)),
    ("summary", .obj [("title", .str (toolName ++ " analysis")),
      ("details", .str ("Analysis completed. Found " ++ toString stats.totalViolations ++
        " violations in " ++ toString stats.filesProcessed ++ " files. Errors: " ++
        toString stats.errorCount ++ ", Warnings: " ++ toString stats.warningCount ++ ", Info: " ++
        toString stats.infoCount)),
      ("result", .str (if result.hasErrors then "FAILED" else "PASSED"))])]

/-- A result in a report format. Colors and verbosity only matter for text. -/
def render (format : Format) (colors : Bool) (verbose : Nat) (result : RunResult) : String :=
  match format with
  | .text => Text.render colors verbose result
  | .json => (resultJson result).pretty
  | .sarif => Sarif.render result
  | .csv => Csv.render result
  | .bitbucket => (insightsJson result).pretty

/-- The rows below a message: its cause and what to do next. -/
def tailRows (colors : Bool) (cause suggestion : Option String) : String :=
  (match cause with
  | none => ""
  | some text =>
    (if colors then "  " ++ Style.dim.code ++ "× " ++ text ++ resetCode else "  × " ++ text) ++
      "\n") ++
  (match suggestion with
  | none => ""
  | some text =>
    (if colors then "  " ++ Style.cyan.code ++ "help:" ++ resetCode ++ " " ++ text
    else "  help: " ++ text) ++ "\n")

/-- An error as it is shown to the user. -/
def errorText (colors : Bool) (label message : String) (cause suggestion : Option String) :
    String :=
  (if colors then
    Style.bold.code ++ Style.red.code ++ "✖ " ++ label ++ ":" ++ resetCode ++ " " ++ message
  else "✖ " ++ label ++ ": " ++ message) ++ "\n" ++ tailRows colors cause suggestion

/-- A warning as it is shown to the user. -/
def warningText (colors : Bool) (message : String) (cause : Option String) : String :=
  (if colors then
    Style.bold.code ++ Style.yellow.code ++ "⚠ Warning:" ++ resetCode ++ " " ++ message
  else "⚠ Warning: " ++ message) ++ "\n" ++ tailRows colors cause none

/-- A problem as it is shown to the user. -/
def problemText (colors : Bool) (problem : Problem) : String :=
  errorText colors problem.label problem.message problem.cause? problem.suggestion?

end CfmlTidy.Report
