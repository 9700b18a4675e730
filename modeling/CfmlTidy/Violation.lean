import CfmlTidy.Severity
import CfmlTidy.Text.Lines

/-!
# Violations

A finding of a rule at a place of a file, and the lines of source shown with it.
-/

namespace CfmlTidy

/-- A finding of a rule at a place of a file. Lines and columns are counted from one. -/
structure Violation where
  /-- The rule that was broken. -/
  ruleId : String
  /-- What is wrong. -/
  message : String
  /-- How serious it is. -/
  severity : Severity
  /-- The file as it was named in the run. -/
  file : String
  /-- First line. -/
  line : Nat
  /-- First column. -/
  column : Nat
  /-- Last line. -/
  endLine : Nat
  /-- Column after the last one. -/
  endColumn : Nat
  /-- Category of the rule. -/
  category : Option String
  /-- Source around the place. -/
  snippet : Option String
  /-- How to mend it. -/
  fix : Option String
deriving Repr, DecidableEq, Inhabited

namespace Violation

/-- A violation one column wide. A line or column of zero counts as one. -/
def located (ruleId message : String) (severity : Severity) (file : String)
    (place : Text.Position) : Violation where
  ruleId := ruleId
  message := message
  severity := severity
  file := file
  line := max place.line 1
  column := max place.column 1
  endLine := max place.line 1
  endColumn := max place.column 1 + 1
  category := none
  snippet := none
  fix := none

end Violation

namespace Snippet

/-- Lines shown before and after the marked one. -/
def context : Nat := 3

/-- A number right-aligned in four columns. -/
def rowNumber (number : Nat) : List Char :=
  let digits := Nat.toDigits 10 number
  List.replicate (4 - digits.length) ' ' ++ digits

/-- One row: a marker or two blanks, the line number, and the line. -/
def row (marked : Nat) (number : Nat) (line : List Char) : List Char :=
  (if number = marked then ['\u27A4', ' '] else [' ', ' ']) ++ rowNumber number ++ [':', ' '] ++
    line ++ ['\n']

/-- Number the lines from one on. -/
def numbered : Nat → List (List Char) → List (Nat × List Char)
  | _, [] => []
  | number, line :: rest => (number, line) :: numbered (number + 1) rest

/-- The numbered lines in the window around a line. -/
def window (lines : List (List Char)) (line : Nat) : List (Nat × List Char) :=
  (numbered 1 lines).filter fun entry =>
    max (line - context) 1 ≤ entry.1 && entry.1 ≤ min (line + context) lines.length

/-- The lines around a line, which is marked; nothing for a line outside the text. -/
def around? (lines : List (List Char)) (line : Nat) : Option String :=
  if line = 0 ∨ lines.length < line then none
  else some (String.ofList ((window lines line).flatMap fun entry => row line entry.1 entry.2))

/-- A violation with the lines around it, when it lies in the text. -/
def attach (lines : List (List Char)) (violation : Violation) : Violation :=
  match around? lines violation.line with
  | some snippet => { violation with snippet := some snippet }
  | none => violation

end Snippet

end CfmlTidy
