import CfmlTidy.Report.Basic
import CfmlTidy.Rule.Registry

/-!
# The report in the static analysis interchange format

One result per violation, and a table of the rules that occur, in the order in which they first
do. A result names its rule by its place in the table.
-/

namespace CfmlTidy.Report.Sarif

/-- Where the schema of the format lies. -/
def schema : String :=
  "https://raw.githubusercontent.com/oasis-tcs/sarif-spec/master/Schemata/sarif-schema-2.1.0.json"

/-- The level of a severity. -/
def level : Severity → String
  | .error => "error"
  | .warning => "warning"
  | .info => "note"

/-- A path with slashes only. -/
def uri (path : String) : String :=
  String.ofList (path.toList.map fun c => if c = '\\' then '/' else c)

/-- What a rule is about: the description of a built-in rule, or the id of any other. -/
def describe (id : String) : String :=
  match Rule.builtin.find? fun rule => rule.id == id with
  | some rule => rule.description
  | none => id

/-- The place of an id in a table, and the table with the id in it. -/
def placeIn (id : String) (table : List String) : Nat × List String :=
  match table.findIdx? (· == id) with
  | some index => (index, table)
  | none => (table.length, table ++ [id])

/-- Give every violation the place of its rule in a table that grows as rules first occur. -/
def assign : (table : List String) → List Violation → List (Nat × Violation) × List String
  | table, [] => ([], table)
  | table, violation :: rest =>
    let (index, grown) := placeIn violation.ruleId table
    let (others, final) := assign grown rest
    ((index, violation) :: others, final)

/-- A message. -/
def message (text : String) : Json := .obj [("text", .str text)]

/-- The entry of a rule in the table. -/
def ruleJson (id : String) : Json :=
  .obj [("id", .str id), ("shortDescription", message (describe id))]

/-- The result of a violation. -/
def resultJson (entry : Nat × Violation) : Json :=
  let violation := entry.2
  .obj [("ruleId", .str violation.ruleId), ("ruleIndex", .nat entry.1),
    ("level", .str (level violation.severity)), ("message", message violation.message),
    ("locations", .arr [.obj [("physicalLocation", .obj [
      ("artifactLocation", .obj [("uri", .str (uri violation.file))]),
      ("region", .obj [("startLine", .nat violation.line), ("startColumn", .nat violation.column),
        ("endLine", .nat violation.endLine), ("endColumn", .nat violation.endColumn)])])]])]

/-- The log as a JSON value. -/
def log (result : RunResult) : Json :=
  let (entries, table) := assign [] result.violations
  .obj [("$schema", .str schema), ("version", .str "2.1.0"),
    ("runs", .arr [.obj [
      ("tool", .obj [("driver", .obj [("name", .str toolName), ("version", .str toolVersion),
        ("rules", .arr (table.map ruleJson))])]),
      ("results", .arr (entries.map resultJson))]])]

/-- The report as text. -/
def render (result : RunResult) : String := (log result).pretty

end CfmlTidy.Report.Sarif
