import CfmlTidy.Rule.Basic
import CfmlTidy.Rule.Case
import CfmlTidy.Rule.Naming

/-!
# File name rules

Names of files, the prefix of interfaces and the suffix of abstract components.
-/

namespace CfmlTidy.Rule

open CfmlTidy.Text

/-- Templates that keep their conventional names. -/
def specialTemplates : List String := ["Application", "index", "error", "404", "500"]

/-- The findings of the name of a component file. -/
def componentFileFindings (stem : String) : List Finding :=
  let named := "CFC filename '" ++ stem ++ "' should "
  (if Case.isPascal stem.toList then [] else [.warning .start (named ++ "be PascalCase")]) ++
  (if stem.toList.contains '_' then
    [.warning .start (named ++ "not contain underscores, use PascalCase instead")] else []) ++
  (if stem.toList.contains '-' then
    [.warning .start (named ++ "not contain hyphens, use PascalCase instead")] else [])

/-- The findings of the name of a template file. -/
def templateFileFindings (convention stem : String) : List Finding :=
  let named := "CFM filename '" ++ stem ++ "' should "
  (if convention == "camelCase" && !specialTemplates.contains stem && !Case.isCamel stem.toList then
    [.warning .start (named ++ "be camelCase")] else []) ++
  (if stem.toList.contains '_' && stem != "Application" && stem != "OnRequestEnd" then
    [.info .start (named ++ "avoid underscores, use camelCase instead")] else [])

/-- Component files start with a capital, template files with a small letter. -/
def fileNaming : Rule :=
  ofFindings "FILE_NAMING" Category.naming
    "Components are PascalCase files, templates camelCase files"
    fun subject =>
      match Path.extension subject.parsed.path with
      | "cfc" => componentFileFindings subject.stem
      | "cfm" | "cfml" =>
        templateFileFindings (subject.settings.naming "cfmFileCase" "camelCase") subject.stem
      | _ => []

/-- The declaration of an interface and, in group 1, its name. -/
def interfaceDeclaration : Pattern :=
  .all [.lineStart, .blanks, .word "interface", .blanks1, .group 1 .name, .blanks,
    .optional (.all [.word "extends", .blanks1, .many (· != '{')]), .char '{']

/-- Whether one text starts with another. -/
def startsWith (text start : String) : Bool := start.toList.isPrefixOf text.toList

/-- Names of interfaces start with a prefix. -/
def interfaceNaming : Rule :=
  ofFindings "INTERFACE_PREFIX" Category.naming "Interfaces start with the configured prefix"
    fun subject =>
      let mark := subject.settings.interfacePrefix
      if !subject.isComponent || mark.isEmpty then []
      else
        ((interfaceDeclaration.findAll subject.masked).filterMap fun found => do
          let name ← found.group? 1
          if startsWith (String.ofList name.text) mark then none
          else
            some (.info (subject.place name.start)
              ("Interface name '" ++ String.ofList name.text ++ "' should start with prefix '" ++
                mark ++ "'"))) ++
        (if subject.onlyDeclares && !startsWith subject.stem mark then
          [.info .start
            ("Component '" ++ subject.stem ++
              "' appears to be an interface and should start with prefix '" ++ mark ++ "'")]
        else [])

/-- The declaration of an abstract component. -/
def abstractComponent : Pattern :=
  .all [.lineStart, .blanks, .word "component", .blanks1, .many (· != '{'), .wordEdge,
    .word "abstract", .blanks, .char '=', .blanks, .optional (.one isAnyQuote), .word "true",
    .optional (.one isAnyQuote), .many (· != '{'), .char '{']

/-- The declaration of an abstract method. -/
def abstractMethod : Pattern :=
  .all [.either .lineStart (.one isBlank), .optional Source.accessWords, .blanks,
    .word "abstract", .blanks1, .word "function", .blanks1, .name, .blanks, .char '(']

/-- What names of base components contain. -/
def baseNames : List String := ["base", "abstract", "parent", "template"]

/-- What is said in base components. -/
def baseTexts : List String := ["base class", "abstract class", "extend this", "parent class"]

/-- Whether a text in any case contains one of some words in lower case. -/
def mentions (words : List String) (text : List Char) : Bool :=
  let small := text.map lower
  words.any fun word => contains word.toList small

/-- The bodies of functions in masked text. -/
def bodies (subject : Subject) : List (List Char) :=
  subject.functions.filterMap fun function =>
    function.body.map fun range => (sliceBytes range.1 range.2 subject.masked).getD []

/-- Whether a body only holds a place: it is blank or throws. -/
def isPlaceholder (body : List Char) : Bool := allBlank body || mentions ["throw"] body

/-- Whether a component looks like a base for others: by its name, by what is said in it, or by
bodies that mostly hold places. -/
def looksBase (subject : Subject) : Bool :=
  mentions baseNames (Path.fileName subject.parsed.path).toList ||
    mentions baseTexts subject.content ||
    (!(bodies subject).isEmpty &&
      (bodies subject).length / 2 < (bodies subject).countP isPlaceholder)

/-- Why a component counts as abstract. -/
def abstractReasons (subject : Subject) : List String :=
  (if abstractComponent.occursIn subject.content then ["explicitly abstract"] else []) ++
  (if abstractMethod.occursIn subject.masked then ["contains abstract methods"] else []) ++
  (if looksBase subject then ["appears to be a base class"] else [])

/-- Names of abstract components end with a suffix. -/
def abstractNaming : Rule :=
  ofFindings "ABSTRACT_SUFFIX" Category.naming
    "Abstract and base components end with the configured suffix"
    fun subject =>
      let mark := subject.settings.abstractSuffix
      if !subject.isComponent || mark.isEmpty ||
          mark.toList.isSuffixOf subject.stem.toList then []
      else
        (abstractReasons subject).map fun reason =>
          .info .start
            ("Component '" ++ subject.stem ++ "' " ++ reason ++ " and should end with suffix '" ++
              mark ++ "'")

end CfmlTidy.Rule
