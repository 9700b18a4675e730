import CfmlTidy.Encoding.Utf8
import CfmlTidy.Launcher
import CfmlTidy.Parse.Result
import CfmlTidy.Text.Pattern

/-!
# Validation by a script engine

Reads a file by asking a script engine for its syntax errors. Without an engine a few checks on
the content stand in for it.
-/

namespace CfmlTidy

/-- A syntax error that a script engine reports. -/
structure EngineError where
  /-- Line of the error. -/
  line : Nat
  /-- Column of the error. -/
  column : Nat
  /-- What is wrong. -/
  message : String
deriving Repr, DecidableEq

/-- Something that finds the syntax errors of a source, or fails to run. -/
structure ScriptEngine where
  /-- The name in messages. -/
  name : String
  /-- The syntax errors of a source, or why the engine could not be run. -/
  validate : List Char → Except String (List EngineError)

namespace ScriptEngine

open CfmlTidy.Text

/-- A colon or a blank. -/
def isGap (c : Char) : Bool := c == ':' || isBlank c

/-- The mention of a line number. -/
def lineMention : Pattern :=
  .all [.wordEdge, .word "line", .some1 isGap, .group 1 (.some1 isDecimal)]

/-- The mention of a column number. -/
def columnMention : Pattern :=
  .all [.wordEdge, .either (.word "col") (.word "column"), .some1 isGap,
    .group 1 (.some1 isDecimal)]

/-- The number written in ASCII digits, when it fits 64 bits. -/
def word64? (digits : List Char) : Option Nat :=
  let value := digits.foldl (fun sum c => sum * 10 + (c.toNat - '0'.toNat)) 0
  if !digits.isEmpty && digits.all isAsciiDigit && value < 0x10000000000000000 then some value
  else none

/-- The number that a text mentions; one when it mentions none. -/
def mentioned (mention : Pattern) (text : List Char) : Nat :=
  ((mention.find? text).bind fun found =>
    (found.group? 1).bind fun capture => word64? capture.text).getD 1

/-- What a validator that failed says: its error output, else its output, else its status. -/
def complaint (program : String) (outcome : Launcher.Outcome) : List Char :=
  let errors := trim (Encoding.Utf8.decode outcome.errors)
  let output := trim (Encoding.Utf8.decode outcome.output)
  if !errors.isEmpty then errors
  else if !output.isEmpty then output
  else (program ++ " exited with " ++ outcome.status.text).toList

/-- The errors of a source according to a command: none when it succeeds, else one whose place is
taken from what the command says. -/
def commandErrors [Launcher] (program : String) (args : List String) (content : List Char) :
    Except String (List EngineError) := do
  let outcome ← Launcher.start program args (Encoding.Utf8.encode content)
  if outcome.status = .exited 0 then return []
  let text := complaint program outcome
  return [⟨mentioned lineMention text, mentioned columnMention text, String.ofList text⟩]

/-- The engine of a command line; none when the program is missing or blank. -/
def ofCommand? [Launcher] : List String → Option ScriptEngine
  | [] => none
  | program :: args =>
    if allBlank program.toList then none else some ⟨program, commandErrors program args⟩

end ScriptEngine

namespace Validation

/-- A syntax error at the first place of a file. -/
def atStart (message : String) : Issue := .syntaxError .start message

/-- What is wrong with a content at first sight: blank content, a tag that is never closed, braces
that do not pair up. -/
def guess (content : List Char) : List Issue :=
  if Text.allBlank content then [.located .warning .start "Empty CFML content" none]
  else
    (if Text.contains ['<', '%'] content && !Text.contains ['%', '>'] content then
      [atStart "Unclosed tag syntax"] else []) ++
    (if Text.contains ['<', 'c', 'f'] content && !content.contains '>' then
      [atStart "Unclosed CF tag"] else []) ++
    (if content.count '{' != content.count '}' then [atStart "Unmatched braces"] else [])

/-- The issue of an error that an engine reports. -/
def issueOf (error : EngineError) : Issue :=
  .syntaxError ⟨error.line, error.column⟩ ("Syntax error: " ++ error.message)

/-- Read a file with an engine, or with the checks that stand in for one. -/
def parse (engine : Option ScriptEngine) (path : String) (content : List Char) :
    Except ParseError Parsed :=
  match engine with
  | none => .ok ((Parsed.ofContent path content true).withIssues (guess content))
  | some engine =>
    match engine.validate content with
    | .error reason =>
      .error (.located path .start ("Script engine '" ++ engine.name ++ "' failed: " ++ reason))
    | .ok errors => .ok ((Parsed.ofContent path content true).withIssues (errors.map issueOf))

end Validation

end CfmlTidy
