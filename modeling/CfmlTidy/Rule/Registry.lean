import CfmlTidy.Rule.FileName
import CfmlTidy.Rule.Naming
import CfmlTidy.Rule.Signature
import CfmlTidy.Rule.Structure
import CfmlTidy.Rule.Whitespace

/-!
# The registry of rules

The built-in rules in the order in which they run, and the selection of rules that settings and
the command line make.
-/

namespace CfmlTidy

namespace Rule

/-- Reports the errors found while reading a file. -/
def syntaxErrors : Rule :=
  ofFindings "SYNTAX_ERROR" Category.syntaxError "Syntax problems found by the parser"
    fun subject =>
      (subject.parsed.issues.filter fun issue => issue.severity == .error).map fun issue =>
        ⟨.error, ⟨issue.line, issue.column⟩, issue.message, none⟩

/-- The built-in rules in order. -/
def builtin : List Rule :=
  [syntaxErrors, trailingWhitespace, excessiveEmptyLines, componentNaming, functionNaming,
    variableNaming, constantNaming, fileNaming, interfaceNaming, abstractNaming,
    requireCurlyBraces, maxFunctionLength, maxLineLength, maxFileLength, requireInit,
    requireReturnTypes, requireArgumentTypes, useAccessors, curlyBraceStyle]

/-- Text filled up with blanks to a width. -/
def padded (width : Nat) (text : String) : String :=
  text ++ String.ofList (List.replicate (width - text.length) ' ')

/-- The list of rules: ids filled up to one width, and descriptions. -/
def listing (rules : List Rule) : String :=
  let width := (rules.map fun rule => rule.id.length).foldl max 0
  String.join (rules.map fun rule => padded width rule.id ++ "  " ++ rule.description ++ "\n")

end Rule

/-- Rules switched on and off by hand. -/
structure RuleSelection where
  /-- Ids switched on, in upper case. -/
  enabled : List String
  /-- Ids switched off, in upper case. -/
  disabled : List String
deriving Repr, DecidableEq, Inhabited

namespace RuleSelection

/-- Nothing switched by hand. -/
def empty : RuleSelection := ⟨[], []⟩

/-- One item of a selection: whether it switches a rule on, and the id. -/
def itemOf? (item : List Char) : Option (Bool × String) :=
  let (on, id) :=
    match item with
    | '-' :: rest => (false, rest)
    | '+' :: rest => (true, rest)
    | rest => (true, rest)
  let name := Text.trim id
  if name.isEmpty then none else some (on, Text.uppered (String.ofList name))

/-- Add items in order; the first that is malformed is the error. -/
def addItems (selection : RuleSelection) : List (List Char) → Except String RuleSelection
  | [] => .ok selection
  | item :: rest =>
    match itemOf? item with
    | none => .error ("Invalid rule selection: " ++ String.ofList item)
    | some (true, id) => addItems { selection with enabled := selection.enabled ++ [id] } rest
    | some (false, id) => addItems { selection with disabled := selection.disabled ++ [id] } rest

/-- The selection written as ids with commas between them: `-` switches a rule off, `+` or nothing
switches it on. -/
def ofText (text : String) : Except String RuleSelection :=
  empty.addItems
    (((Text.splitOn ',' text.toList).map Text.trim).filter (!·.isEmpty))

/-- Whether an id is in a list; case does not count. -/
def lists (ids : List String) (id : String) : Bool :=
  ids.any fun other => Text.sameIgnoringCase other.toList id.toList

/-- Whether a rule is active, given the ids that settings switch off. -/
def isActive (selection : RuleSelection) (configured : List String) (id : String) : Bool :=
  !lists selection.disabled id && (lists selection.enabled id || !lists configured id)

/-- The built-in rules that are active under settings and a selection. -/
def rules (selection : RuleSelection) (settings : Settings) : List Rule :=
  Rule.builtin.filter fun rule => selection.isActive settings.disabledRules rule.id

end RuleSelection

end CfmlTidy
