import CfmlTidy.Json.Writer
import CfmlTidy.Settings.Document

/-!
# Settings

The settings of a run: a document, the directory that patterns are relative to, and the file the
document came from. Every accessor has a default, which stands in for a value that is missing or
has the wrong shape.
-/

namespace CfmlTidy

/-- The settings of a run. -/
structure Settings where
  /-- The resolved document. -/
  document : Json
  /-- The directory that patterns are relative to. -/
  baseDir : String
  /-- The file the document came from. -/
  source : Option String

namespace Settings

/-- The value at a dotted path. -/
def get? (settings : Settings) (path : String) : Option Json :=
  valueAt? settings.document (keysOf path)

/-- The text at a path; numbers and truth values are written out. -/
def getStr (settings : Settings) (path missing : String) : String :=
  match settings.get? path with
  | some (.str value) => value
  | some (.int value) => Json.intText value
  | some (.real bits) => Json.realText bits
  | some (.bool value) => if value then "true" else "false"
  | _ => missing

/-- The integer written in a text: an optional sign and decimal digits. -/
def intOf? (text : List Char) : Option Int :=
  let negative := text.head? == some '-'
  let digits := if negative || text.head? == some '+' then text.drop 1 else text
  let value := digits.foldl (fun sum c => sum * 10 + Json.digitValue c) 0
  if digits.isEmpty || !digits.all Json.isDigit then none
  else some (if negative then -(value : Int) else value)

/-- An integer of 64 signed bits. -/
def fits64 (value : Int) : Bool := -0x8000000000000000 ≤ value && value < 0x8000000000000000

/-- An integer of 32 signed bits. -/
def fits32 (value : Int) : Bool := -0x80000000 ≤ value && value < 0x80000000

/-- The 64-bit integer at a path; a text with an integer counts. -/
def getLong (settings : Settings) (path : String) (missing : Int) : Int :=
  match settings.get? path with
  | some (.int value) => if fits64 value then value else missing
  | some (.str text) => ((intOf? (Text.trim text.toList)).filter fits64).getD missing
  | _ => missing

/-- The 32-bit integer at a path. -/
def getInt (settings : Settings) (path : String) (missing : Int) : Int :=
  let value := settings.getLong path missing
  if fits32 value then value else missing

/-- The truth value at a path; a text with one counts. -/
def getBool (settings : Settings) (path : String) (missing : Bool) : Bool :=
  match settings.get? path with
  | some (.bool value) => value
  | some (.str text) =>
    let word := Text.trimmed text
    if word = "true" then true else if word = "false" then false else missing
  | _ => missing

/-- The texts of the array at a path; items of other kinds are left out. -/
def getList (settings : Settings) (path : String) (missing : List String) : List String :=
  match settings.get? path with
  | some (.arr items) => items.filterMap Json.asString?
  | _ => missing

/-- Lay a document over the settings. -/
def withOverlay (settings : Settings) (overlay : Json) : Settings :=
  { settings with document := merge settings.document overlay }

/-- The document as indented text. -/
def exported (settings : Settings) : String := settings.document.pretty

end Settings

end CfmlTidy
