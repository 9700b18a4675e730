import CfmlTidy.Problem
import CfmlTidy.Settings.Defaults
import CfmlTidy.Source.Function
import CfmlTidy.Source.Mask
import CfmlTidy.Violation

/-!
# Rules

A rule looks at one file and reports violations, or fails. Failing is a value: a rule that fails
contributes one warning of its own and does not disturb the others.
-/

namespace CfmlTidy

/-- Everything a rule may look at for one file. -/
structure Subject where
  /-- The file as it was read. -/
  parsed : Parsed
  /-- The settings of the run. -/
  settings : Settings
  /-- The lines of the file. -/
  lines : List (List Char)
  /-- The content with comments and literals blanked out. -/
  masked : List Char
  /-- The function declarations of the file. -/
  functions : List Source.FunctionDecl

namespace Subject

/-- What rules see of a parsed file. -/
def ofParsed (parsed : Parsed) (settings : Settings) : Subject :=
  let masked := Source.mask parsed.content
  ⟨parsed, settings, Text.splitLines parsed.content, masked, Source.functionsOf masked⟩

/-- The text of the file. -/
def content (subject : Subject) : List Char := subject.parsed.content

/-- The place of a byte offset. -/
def place (subject : Subject) (offset : Nat) : Text.Position :=
  Text.positionAt subject.content offset

/-- The first column of the line of a byte offset. -/
def lineStart (subject : Subject) (offset : Nat) : Text.Position :=
  ⟨(subject.place offset).line, 1⟩

/-- The file name without its extension. -/
def stem (subject : Subject) : String := Path.stem subject.parsed.path

/-- Whether the file is a component file. -/
def isComponent (subject : Subject) : Bool := Path.isComponentFile subject.parsed.path

/-- Whether the file declares functions and none of them has a body. -/
def onlyDeclares (subject : Subject) : Bool :=
  !subject.functions.isEmpty && subject.functions.all fun function => !function.hasBody

end Subject

/-- How a rule can fail. -/
inductive Failure where
  /-- With a problem. -/
  | problem (problem : Problem)
  /-- By breaking down, with a message if it left one. -/
  | crash (text : Option String)
deriving Repr, DecidableEq

/-- The wording of a breakdown. -/
def crashText (text : Option String) : String := text.getD "unknown panic"

/-- The wording of a failure. -/
def Failure.message : Failure → String
  | problem (.rule _ text) => text
  | problem other => other.message
  | crash text => crashText text

/-- An independent check of one file. -/
structure Rule where
  /-- The name of the rule. -/
  id : String
  /-- The category its violations belong to. -/
  category : String
  /-- What it checks, in one line. -/
  description : String
  /-- The violations of a file, or how the rule failed on it. -/
  check : Subject → Except Failure (List Violation)

namespace Rule

/-- The rule id of the warning about a rule that failed. -/
def executionError : String := "RULE_EXECUTION_ERROR"

/-- What a rule contributes for a file: its violations, or a warning that it failed. -/
def outcome (rule : Rule) (subject : Subject) : List Violation :=
  match rule.check subject with
  | .ok violations => violations
  | .error failure =>
    [.located executionError ("Rule " ++ rule.id ++ " failed: " ++ failure.message) .warning
      subject.parsed.path .start]

/-- The violations of rules in order. -/
def analyze (rules : List Rule) (subject : Subject) : List Violation :=
  rules.flatMap fun rule => rule.outcome subject

end Rule

/-- What a rule finds at a place, before it is known as a violation of that rule. -/
structure Finding where
  /-- How serious it is. -/
  severity : Severity
  /-- Where it is. -/
  place : Text.Position
  /-- What is wrong. -/
  message : String
  /-- How to mend it. -/
  fix : Option String

namespace Finding

/-- A finding that is worth knowing. -/
def info (place : Text.Position) (message : String) : Finding := ⟨.info, place, message, none⟩

/-- A finding that is worth changing. -/
def warning (place : Text.Position) (message : String) : Finding :=
  ⟨.warning, place, message, none⟩

end Finding

/-- A rule that is given by what it finds and never fails. -/
def Rule.ofFindings (id category description : String) (find : Subject → List Finding) : Rule where
  id := id
  category := category
  description := description
  check subject := .ok ((find subject).map fun finding =>
    { Violation.located id finding.message finding.severity subject.parsed.path finding.place with
      category := some category
      fix := finding.fix })

namespace Category

/-- Names. -/
def naming : String := "NAMING_CONVENTION"

/-- Layout. -/
def style : String := "STYLE_GUIDE"

/-- Habits that keep code sound. -/
def practice : String := "BEST_PRACTICE"

/-- Errors of syntax. -/
def syntaxError : String := "SYNTAX_ERROR"

end Category

end CfmlTidy
