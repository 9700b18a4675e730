import CfmlTidy.Rule.Basic
import CfmlTidy.Rule.Case

/-!
# Naming rules

Names of components, functions, variables and constants.
-/

namespace CfmlTidy.Rule

open CfmlTidy.Text

/-- A quote of either kind. -/
def isAnyQuote (c : Char) : Bool := c == '"' || c == '\''

/-- The start of a component declaration and, in group 1, its attributes on the same line. -/
def componentHead : Pattern :=
  .all [.lineStart, .blanks, .word "component", .wordEdge,
    .group 1 (.many fun c => c != '{' && c != '\n')]

/-- A name attribute and, in group 1, its value. -/
def nameAttribute : Pattern :=
  .all [.wordEdge, .word "name", .blanks, .char '=', .blanks, .optional (.one isAnyQuote),
    .group 1 (.some1 fun c => !isBlank c && !isAnyQuote c && c != '{')]

/-- Names in component declarations that do not start with a capital. -/
def componentNameFindings (subject : Subject) : List Finding :=
  (componentHead.findAll subject.content).filterMap fun found => do
    let attributes ← found.group? 1
    let named ← nameAttribute.find? attributes.text
    let declared ← named.group? 1
    if Case.isPascal declared.text then none
    else
      some (.warning
        (subject.lineStart (found.start.offset + byteLength (found.text.takeWhile isBlank)))
        ("Component name attribute '" ++ String.ofList declared.text ++ "' should be PascalCase"))

/-- Components have names that start with a capital. -/
def componentNaming : Rule :=
  ofFindings "COMPONENT_NAMING" Category.naming
    "Component file names and name attributes must be PascalCase"
    fun subject =>
      if !subject.isComponent ||
          subject.settings.naming "componentCase" "PascalCase" != "PascalCase" then []
      else
        (if Case.isPascal subject.stem.toList then []
        else [.warning .start ("Component filename '" ++ subject.stem ++ "' should be PascalCase")])
          ++ componentNameFindings subject

/-- Functions have names that start with a small letter, lifecycle methods apart. -/
def functionNaming : Rule :=
  ofFindings "FUNCTION_NAMING" Category.naming "Function names must be camelCase"
    fun subject =>
      if subject.settings.naming "functionCase" "camelCase" != "camelCase" then []
      else
        subject.functions.filterMap fun function =>
          if Case.isLifecycle function.name || Case.isCamel function.name then none
          else
            some (.warning (subject.place function.nameOffset)
              ("Function name '" ++ String.ofList function.name ++ "' should be camelCase"))

/-- Names of scopes, which follow no convention. -/
def scopes : List String :=
  ["arguments", "variables", "local", "this", "super", "session", "application", "request",
    "form", "url", "cookie", "server", "client", "cgi"]

/-- Whether a name is that of a scope. -/
def isScope (name : List Char) : Bool :=
  scopes.any fun scope => sameIgnoringCase scope.toList name

/-- Whether a variable or argument may have a name. -/
def isVariableName (name : List Char) : Bool := isScope name || Case.isCamel name

/-- The declaration of a variable and, in group 1, its name. -/
def variableDeclaration : Pattern :=
  .all [.either .lineStart (.one isBlank),
    .oneOf [.seq (.word "var") .blanks1, .seq (.word "local") (.char '.'),
      .seq (.word "variables") (.char '.')],
    .group 1 .name, .blanks, .char '=']

/-- Variables and arguments have names that start with a small letter. -/
def variableNaming : Rule :=
  ofFindings "VARIABLE_NAMING" Category.naming
    "Local variables and function arguments must be camelCase"
    fun subject =>
      if subject.settings.naming "variableCase" "camelCase" != "camelCase" then []
      else
        ((variableDeclaration.findAll subject.masked).filterMap fun found => do
          let name ← found.group? 1
          if isVariableName name.text then none
          else
            some (.warning (subject.place name.start)
              ("Variable name '" ++ String.ofList name.text ++ "' should be camelCase"))) ++
        (subject.functions.flatMap (·.params)).filterMap fun param =>
          if isVariableName param.name then none
          else
            some (.warning (subject.place param.offset)
              ("Function argument '" ++ String.ofList param.name ++ "' should be camelCase"))

/-- The assignment of a literal and, in group 1, the name assigned to. -/
def literalAssignment : Pattern :=
  .all [.either .lineStart (.one isBlank),
    .optional (.oneOf [.seq (.word "variables") (.char '.'), .seq (.word "this") (.char '.'),
      .seq (.word "local") (.char '.')]),
    .group 1 .name, .blanks, .char '=', .blanks,
    .oneOf [.all [.one isAnyQuote, .many (fun c => !isAnyQuote c), .one isAnyQuote],
      .some1 isDecimal, .word "true", .word "false"]]

/-- An assignment to a name. -/
def assignmentTo (name : List Char) : Pattern :=
  .all [.wordEdge, .word (String.ofList name), .blanks, .char '=']

/-- Whether a name looks like that of a constant: in capitals with an underscore, or assigned
exactly once with two capitals or an underscore. -/
def looksConstant (masked name : List Char) : Bool :=
  (name.contains '_' && Case.isShouted name) ||
    ((2 ≤ name.countP Case.isCapital || name.contains '_') &&
      ((assignmentTo name).findAll masked).length == 1)

/-- Names that look like those of constants are in capitals. -/
def constantNaming : Rule :=
  ofFindings "CONSTANT_NAMING" Category.naming "Constants must be UPPER_CASE"
    fun subject =>
      if subject.settings.naming "constantCase" "UPPER_CASE" != "UPPER_CASE" then []
      else
        (literalAssignment.findAll subject.masked).filterMap fun found => do
          let name ← found.group? 1
          if Case.isUpper name.text || !looksConstant subject.masked name.text then none
          else
            some (.warning (subject.place name.start)
              ("Constant '" ++ String.ofList name.text ++ "' should be UPPER_CASE"))

end CfmlTidy.Rule
