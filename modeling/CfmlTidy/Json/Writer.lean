import CfmlTidy.Json.Number

/-!
# Writing JSON

Compact text on one line, and indented text with two spaces per level in which empty arrays and
objects stay on one line.
-/

namespace CfmlTidy.Json

/-- A hexadecimal digit in lower case. -/
def hexDigit (value : Nat) : Char :=
  if value < 10 then Char.ofNat ('0'.toNat + value) else Char.ofNat ('a'.toNat + (value - 10))

/-- A character inside a quoted text. -/
def quoteChar (c : Char) : List Char :=
  if c = '"' then ['\\', '"']
  else if c = '\\' then ['\\', '\\']
  else if c = '\n' then ['\\', 'n']
  else if c = '\r' then ['\\', 'r']
  else if c = '\t' then ['\\', 't']
  else if c = '\x08' then ['\\', 'b']
  else if c = '\x0c' then ['\\', 'f']
  else if c.toNat < 0x20 then
    ['\\', 'u', '0', '0', hexDigit (c.toNat / 16), hexDigit (c.toNat % 16)]
  else [c]

/-- A text in quotes. -/
def quoted (text : String) : String :=
  "\"" ++ String.ofList (text.toList.flatMap quoteChar) ++ "\""

/-- The texts with commas between them. -/
def commaJoined (separator : String) : List String → String
  | [] => ""
  | [text] => text
  | text :: rest => text ++ separator ++ commaJoined separator rest

mutual

/-- A value on one line. -/
def compact : Json → String
  | null => "null"
  | bool true => "true"
  | bool false => "false"
  | int value => intText value
  | real bits => realText bits
  | str value => quoted value
  | arr items => "[" ++ commaJoined "," (compactItems items) ++ "]"
  | obj fields => "\x7b" ++ commaJoined "," (compactFields fields) ++ "\x7d"

/-- The items of an array on one line. -/
def compactItems : List Json → List String
  | [] => []
  | item :: rest => compact item :: compactItems rest

/-- The fields of an object on one line. -/
def compactFields : List (String × Json) → List String
  | [] => []
  | (key, value) :: rest => (quoted key ++ ":" ++ compact value) :: compactFields rest

end

/-- A newline and the indentation of a level. -/
def lineBreak (level : Nat) : String :=
  String.ofList ('\n' :: List.replicate (2 * level) ' ')

/-- The parts of an array or object between its brackets, one per line. -/
def block (opening closing : String) (level : Nat) (parts : List String) : String :=
  if parts.isEmpty then opening ++ closing
  else
    opening ++ lineBreak (level + 1) ++ commaJoined ("," ++ lineBreak (level + 1)) parts ++
      lineBreak level ++ closing

mutual

/-- A value that starts at a level of indentation. -/
def prettyAt (level : Nat) : Json → String
  | null => "null"
  | bool true => "true"
  | bool false => "false"
  | int value => intText value
  | real bits => realText bits
  | str value => quoted value
  | arr items => block "[" "]" level (prettyItems (level + 1) items)
  | obj fields => block "\x7b" "\x7d" level (prettyFields (level + 1) fields)

/-- The items of an array at a level of indentation. -/
def prettyItems (level : Nat) : List Json → List String
  | [] => []
  | item :: rest => prettyAt level item :: prettyItems level rest

/-- The fields of an object at a level of indentation. -/
def prettyFields (level : Nat) : List (String × Json) → List String
  | [] => []
  | (key, value) :: rest =>
    (quoted key ++ ": " ++ prettyAt level value) :: prettyFields level rest

end

/-- A value as indented text. -/
def pretty (value : Json) : String := prettyAt 0 value

end CfmlTidy.Json
