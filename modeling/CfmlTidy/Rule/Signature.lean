import CfmlTidy.Rule.Case
import CfmlTidy.Rule.Naming

/-!
# Signature rules

Constructors, declared types and generated accessors.
-/

namespace CfmlTidy.Rule

open CfmlTidy.Text

/-- A line that starts with a word. -/
def lineWord (text : String) : Pattern :=
  .all [.lineStart, .blanks, .word text, .wordEdge]

/-- Whether a file is an interface: it says so, or it only declares functions. -/
def isInterface (subject : Subject) : Bool :=
  (lineWord "interface").occursIn subject.masked || subject.onlyDeclares

/-- Components define a constructor. -/
def requireInit : Rule :=
  ofFindings "REQUIRE_INIT" Category.practice "Components define an init() constructor"
    fun subject =>
      if !subject.settings.structureFlag "requireInit" || !subject.isComponent ||
          !(lineWord "component").occursIn subject.masked || isInterface subject ||
          subject.functions.any fun function => sameIgnoringCase function.name "init".toList
      then []
      else
        [.warning .start "Component should have an init() method for proper initialization"]

/-- Functions declare the type of their result, lifecycle methods apart. -/
def requireReturnTypes : Rule :=
  ofFindings "REQUIRE_RETURN_TYPES" Category.practice "Functions declare a return type"
    fun subject =>
      if !subject.settings.structureFlag "requireReturnTypes" then []
      else
        subject.functions.filterMap fun function =>
          if function.returnType.isNone && !Case.isLifecycle function.name then
            some (.warning (subject.place function.start)
              ("Function '" ++ String.ofList function.name ++ "' should specify a return type"))
          else none

/-- Arguments declare their types. -/
def requireArgumentTypes : Rule :=
  ofFindings "REQUIRE_ARGUMENT_TYPES" Category.practice "Function arguments declare a type"
    fun subject =>
      if !subject.settings.structureFlag "requireArgumentTypes" then []
      else
        (subject.functions.flatMap (·.params)).filterMap fun param =>
          if param.type.isNone then
            some (.warning (subject.place param.offset)
              ("Function argument '" ++ String.ofList param.name ++ "' should specify a type"))
          else none

/-- The declaration of a property. -/
def propertyDeclaration : Pattern := .all [.lineStart, .blanks, .word "property", .blanks1]

/-- A component declaration up to its opening brace. -/
def componentDeclaration : Pattern := .seq (lineWord "component") (.many (· != '{'))

/-- The attribute that switches accessors on. -/
def accessorsAttribute : Pattern :=
  .all [.wordEdge, .word "accessors", .blanks, .char '=', .blanks, .optional (.one isAnyQuote),
    .word "true", .wordEdge]

/-- Components with properties have accessors generated. -/
def useAccessors : Rule :=
  ofFindings "USE_ACCESSORS" Category.practice
    "Components with properties enable generated accessors"
    fun subject =>
      if !subject.settings.structureFlag "useAccessors" || !subject.isComponent ||
          !propertyDeclaration.occursIn subject.masked then []
      else
        let declaration :=
          match componentDeclaration.find? subject.content with
          | some found => found.text
          | none => subject.content
        if accessorsAttribute.occursIn declaration then []
        else
          [.info .start "Component with properties should use accessors=\"true\""]

end CfmlTidy.Rule
