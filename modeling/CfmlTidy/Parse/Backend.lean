import CfmlTidy.Parse.Engine
import CfmlTidy.Parse.Structural

/-!
# Parsers

The three ways to read a file, the tags that name them, and how a file is routed to one: by an
explicit choice, or by whether its content looks like a component or tag markup.
-/

namespace CfmlTidy

/-- A way to read a file. -/
inductive Backend where
  /-- By its bracket structure. -/
  | structural
  /-- By a script engine. -/
  | engine
  /-- Not at all: every content is accepted. -/
  | permissive
deriving Repr, DecidableEq

namespace Backend

/-- The tag of a parser in settings and statistics. -/
def tag : Backend → String
  | structural => "boxlang"
  | engine => "lucee"
  | permissive => "regex"

/-- The parser of a tag; case does not count. -/
def ofTag? (tag : String) : Option Backend :=
  [("boxlang", structural), ("lucee", engine), ("regex", permissive)].lookup (Text.lowered tag)

/-- Whether a parser takes a content at all. -/
def accepts : Backend → List Char → Bool
  | structural, content => !content.contains '\x00'
  | engine, content => !Text.allBlank content
  | permissive, _ => true

/-- Read a file; the script engine is used by the parser that validates with one. -/
def parse (backend : Backend) (script : Option ScriptEngine) (path : String)
    (content : List Char) : Except ParseError Parsed :=
  match backend with
  | structural => Script.parse path content
  | engine => Validation.parse script path content
  | permissive => .ok (Parsed.ofContent path content true)

end Backend

/-- How files are routed to parsers. -/
inductive ParserMode where
  /-- By their content. -/
  | auto
  /-- All to one parser. -/
  | explicit (backend : Backend)
deriving Repr, DecidableEq, Inhabited

namespace ParserMode

/-- The mode of a name; case and blanks around it do not count. -/
def ofName? (text : String) : Option ParserMode :=
  let name := Text.lowered (Text.trimmed text)
  if name = "auto" then some auto else (Backend.ofTag? name).map explicit

/-- What is said of a name that is no mode. -/
def unknownMessage (text : String) : String :=
  "Unknown parser: " ++ text ++ " (expected auto, boxlang, lucee or regex)"

/-- What components, interfaces and tag markup contain. -/
def primaryMarks : List String := ["component", "interface", "<cf", "</cf"]

/-- Whether a content looks like a component, an interface or tag markup. -/
def prefersPrimary (content : List Char) : Bool :=
  primaryMarks.any fun mark => Text.contains mark.toList content

/-- The tag of the parser for a content, given the tags of the two parsers to choose from. -/
def select (mode : ParserMode) (content : List Char) (primary fallback : String) : String :=
  match mode with
  | explicit backend => backend.tag
  | auto => if prefersPrimary content then primary else fallback

end ParserMode

end CfmlTidy
