import CfmlTidy.Rule.Basic

/-!
# Structure rules

Braces around controlled statements and where they stand, and the lengths of functions, lines and
files.
-/

namespace CfmlTidy.Rule

open CfmlTidy.Text

/-- Whether a line carries code rather than blanks or comment text. -/
def isCodeLine (skipStars : Bool) (line : List Char) : Bool :=
  let text := trim line
  !text.isEmpty && !(['/', '/'].isPrefixOf text) && !(['/', '*'].isPrefixOf text) &&
    text != ['*', '/'] && !(skipStars && ['*'].isPrefixOf text)

/-- A limit above zero. -/
def limit? (value : Int) : Option Nat := if 0 < value then some value.toNat else none

/-- A keyword that controls a statement. -/
def controlKeyword : Pattern :=
  .all [.wordEdge,
    .oneOf [.word "if", .word "else", .word "for", .word "while", .word "try", .word "catch"],
    .wordEdge]

/-- What is said of a keyword whose statement has no braces. -/
def braceMessage (keyword : String) : String :=
  (match keyword with
  | "if" => "If statement"
  | "else" => "Else statement"
  | "for" => "For loop"
  | "while" => "While loop"
  | "try" => "Try statement"
  | _ => "Catch statement") ++ " should use curly braces"

/-- The text from the controlled statement on: after the keyword, or after its condition. -/
def statementAfter? (keyword : String) (rest : List Char) : Option (List Char) :=
  if keyword = "else" ∨ keyword = "try" then some (trimStart rest)
  else
    match trimStart rest with
    | '(' :: condition =>
      (Source.splitAtClose '(' ')' 0 condition).map fun cut => trimStart cut.2
    | _ => none

/-- Whether a text starts with the word `if`. -/
def startsWithIf : List Char → Bool
  | i :: f :: rest =>
    lower i == 'i' && lower f == 'f' && !rest.head?.any fun c => isAlphanumeric c || c == '_'
  | _ => false

/-- Whether a statement stands without braces and ends on the line on which it starts. -/
def isBraceless (keyword : String) (statement : List Char) : Bool :=
  match statement with
  | [] => false
  | c :: _ =>
    c != '{' && c != ';' && !(keyword == "else" && startsWithIf statement) &&
      (statement.takeWhile (· != '\n')).contains ';'

/-- Controlled statements stand in braces. -/
def requireCurlyBraces : Rule :=
  ofFindings "REQUIRE_CURLY_BRACES" Category.practice "Control structures must use braces"
    fun subject =>
      if !subject.settings.structureFlag "requireCurlyBraces" then []
      else
        (controlKeyword.findAll subject.masked).filterMap fun found => do
          let keyword := lowered (String.ofList found.text)
          let statement ← statementAfter? keyword found.stop.rest
          if isBraceless keyword statement then
            some (.warning (subject.place found.start.offset) (braceMessage keyword))
          else none

/-- The number of code lines of a body. -/
def codeLines (body : List Char) : Nat := (splitOn '\n' body).countP (isCodeLine false)

/-- Limits the code lines of a function. -/
def maxFunctionLength : Rule :=
  ofFindings "MAX_FUNCTION_LENGTH" Category.practice "Limits code lines per function body"
    fun subject =>
      match limit? subject.settings.maxFunctionLength with
      | none => []
      | some limit =>
        subject.functions.filterMap fun function => do
          let range ← function.body
          let body ← sliceBytes range.1 range.2 subject.content
          if limit < codeLines body then
            some (.warning (subject.lineStart function.start)
              ("Function '" ++ String.ofList function.name ++ "' is too long (" ++
                toString (codeLines body) ++ " lines, max " ++ toString limit ++ ")"))
          else none

/-- Display width of a line; a tab advances to the next multiple of its width. -/
def displayWidth (tab : Nat) (line : List Char) : Nat :=
  line.foldl (fun width c => if c = '\t' then width + tab - width % tab else width + 1) 0

/-- Limits the display width of a line. -/
def maxLineLength : Rule :=
  ofFindings "MAX_LINE_LENGTH" Category.style "Limits the display width of a line"
    fun subject =>
      match limit? subject.settings.maxLineLength with
      | none => []
      | some limit =>
        let tab := max subject.settings.indentSize.toNat 1
        (Snippet.numbered 1 subject.lines).filterMap fun entry =>
          let width := displayWidth tab entry.2
          if limit < width then
            some (.warning ⟨entry.1, width⟩
              ("Line is too long (" ++ toString width ++ " characters, max " ++ toString limit ++
                ")"))
          else none

/-- Limits the code lines of a file. -/
def maxFileLength : Rule :=
  ofFindings "MAX_FILE_LENGTH" Category.practice "Limits code lines per file"
    fun subject =>
      match limit? subject.settings.maxFileLength with
      | none => []
      | some limit =>
        let count := subject.lines.countP (isCodeLine true)
        if limit < count then
          [.warning .start
            ("File is too long (" ++ toString count ++ " lines, max " ++ toString limit ++ ")")]
        else []

/-- A keyword, in group 1, whose opening brace stands on a line of its own. -/
def braceOnNextLine : Pattern :=
  .all [.wordEdge,
    .group 1 (.oneOf [.word "if", .word "else", .word "for", .word "while", .word "function",
      .word "component", .word "try", .word "catch"]),
    .wordEdge, .many (fun c => c != '{' && c != '}' && c != '\n'), .char '\n', .blanks, .char '{']

/-- Opening braces stand on the line of their statement. -/
def curlyBraceStyle : Rule :=
  ofFindings "CURLY_BRACE_STYLE" Category.style
    "Opening braces sit on the same line as their statement"
    fun subject =>
      if subject.settings.braceStyle != "same-line" then []
      else
        (braceOnNextLine.findAll subject.masked).filterMap fun found =>
          (found.group? 1).map fun keyword =>
            .info (subject.place keyword.start)
              (String.ofList keyword.text ++ " statement should have opening brace on same line")

end CfmlTidy.Rule
