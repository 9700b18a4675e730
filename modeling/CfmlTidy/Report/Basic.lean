import CfmlTidy.Json.Writer
import CfmlTidy.Result.Run
import CfmlTidy.Text.Letter

/-!
# Reports

The formats a run can be reported in, and what they share: the name of the tool, colors, and the
JSON form of violations and changes.
-/

namespace CfmlTidy.Report

/-- The name of the tool in reports. -/
def toolName : String := "cfml-lint"

/-- The version of the tool in reports. -/
def toolVersion : String := "0.1.0"

/-- A report format. -/
inductive Format where
  /-- Text for people, grouped by file. -/
  | text
  /-- One JSON object. -/
  | json
  /-- Static analysis results interchange format. -/
  | sarif
  /-- Comma-separated values. -/
  | csv
  /-- Code insights. -/
  | bitbucket
deriving Repr, DecidableEq, Inhabited

/-- The format of a name; case and blanks around it do not count. -/
def Format.ofName? (name : String) : Option Format :=
  [("text", text), ("console", text), ("json", json), ("sarif", sarif), ("csv", csv),
    ("bitbucket", bitbucket)].lookup (Text.loweredWord (Text.trimmed name))

/-- A way to set off text on a terminal. -/
inductive Style where
  /-- Bold. -/
  | bold
  /-- Dim. -/
  | dim
  /-- Red. -/
  | red
  /-- Green. -/
  | green
  /-- Yellow. -/
  | yellow
  /-- Cyan. -/
  | cyan
deriving Repr, DecidableEq

/-- The sequence that switches a style on. -/
def Style.code : Style → String
  | bold => "\x1b[1m"
  | dim => "\x1b[2m"
  | red => "\x1b[31m"
  | green => "\x1b[32m"
  | yellow => "\x1b[33m"
  | cyan => "\x1b[36m"

/-- The sequence that switches every style off. -/
def resetCode : String := "\x1b[0m"

/-- Text set off by a style, if colors are used. -/
def paint (colors : Bool) (style : Style) (text : String) : String :=
  if colors then style.code ++ text ++ resetCode else text

/-- An optional text field of an object; nothing when it is missing. -/
def optionalField (key : String) (value : Option String) : List (String × Json) :=
  match value with
  | some text => [(key, .str text)]
  | none => []

/-- A violation as a JSON value. -/
def violationJson (violation : Violation) : Json :=
  .obj ([("ruleId", .str violation.ruleId), ("message", .str violation.message),
    ("severity", .str violation.severity.name), ("file", .str violation.file),
    ("line", .nat violation.line), ("column", .nat violation.column),
    ("endLine", .nat violation.endLine), ("endColumn", .nat violation.endColumn)] ++
    optionalField "category" violation.category ++
    optionalField "codeSnippet" violation.snippet ++
    optionalField "suggestedFix" violation.fix)

/-- A change of formatting as a JSON value. -/
def changeJson (change : FormattingChange) : Json :=
  .obj [("file", .str change.file), ("startLine", .nat change.startLine),
    ("endLine", .nat change.endLine), ("changeType", .str change.kind),
    ("description", .str change.description)]

end CfmlTidy.Report
