import CfmlTidy.Report.Basic

/-!
# The report as comma-separated values

A header and one record per violation, each ended by a carriage return and a newline. A field with
a comma, a quote or a line break stands in quotes, and its own quotes are doubled.
-/

namespace CfmlTidy.Report.Csv

/-- The names of the fields. -/
def header : List (List Char) :=
  ["file", "line", "column", "severity", "rule", "message"].map String.toList

/-- Whether a field has to stand in quotes. -/
def needsQuotes (field : List Char) : Bool :=
  field.any fun c => c == ',' || c == '"' || c == '\n' || c == '\r'

/-- A field as written. -/
def writeField (field : List Char) : List Char :=
  if needsQuotes field then
    '"' :: field.flatMap (fun c => if c = '"' then ['"', '"'] else [c]) ++ ['"']
  else field

/-- A record as written. -/
def writeRecord (fields : List (List Char)) : List Char :=
  CfmlTidy.Text.joinWith [','] (fields.map writeField) ++ ['\r', '\n']

/-- The fields of a violation. -/
def fieldsOf (violation : Violation) : List (List Char) :=
  [violation.file.toList, (Json.natText violation.line).toList,
    (Json.natText violation.column).toList, violation.severity.name.toList,
    violation.ruleId.toList, violation.message.toList]

/-- The records of a report: the header and one per violation. -/
def records (result : RunResult) : List (List (List Char)) :=
  header :: result.violations.map fieldsOf

/-- The report as comma-separated values. -/
def render (result : RunResult) : String :=
  String.ofList ((records result).flatMap writeRecord)

end CfmlTidy.Report.Csv
