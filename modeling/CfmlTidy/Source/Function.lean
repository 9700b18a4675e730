import CfmlTidy.Source.Bracket
import CfmlTidy.Text.Pattern

/-!
# Function declarations

Finds function declarations in masked script source: modifiers, type, name, parameters and the
extent of the body. Offsets are byte offsets into the source.
-/

namespace CfmlTidy.Source

open CfmlTidy.Text

/-- A parameter of a function. -/
structure Param where
  /-- Its name, the last word of the declaration. -/
  name : List Char
  /-- The word before the name, if there is one. -/
  type : Option (List Char)
  /-- Whether the declaration starts with the word for required parameters. -/
  required : Bool
  /-- Where the declaration starts. -/
  offset : Nat
deriving Repr, DecidableEq

/-- A function declaration. -/
structure FunctionDecl where
  /-- The name as written. -/
  name : List Char
  /-- The access modifier in lower case. -/
  access : Option String
  /-- The declared type of the result. -/
  returnType : Option (List Char)
  /-- The parameters in order. -/
  params : List Param
  /-- Where the declaration starts. -/
  start : Nat
  /-- Where the name starts. -/
  nameOffset : Nat
  /-- The extent of the body strictly between its braces; none for a declaration without one. -/
  body : Option (Nat × Nat)
deriving Repr, DecidableEq

/-- Whether a declaration has a body. -/
def FunctionDecl.hasBody (function : FunctionDecl) : Bool := function.body.isSome

/-- Words before a function that are not its type. -/
def modifiers : List String :=
  ["abstract", "final", "static", "public", "private", "package", "remote"]

/-- A semicolon or brace, after which a declaration may start. -/
def isDeclarationEdge (c : Char) : Bool :=
  c == ';' || c == '{' || c == '}'

/-- The access modifiers. -/
def accessWords : Pattern :=
  .oneOf [.word "public", .word "private", .word "package", .word "remote"]

/-- The head of a declaration up to its opening parenthesis. Groups: 1 access, 2 the word for
static functions, 3 a type or another modifier, 4 the name. -/
def functionHead : Pattern :=
  .all [
    .either .lineStart (.one fun c => isBlank c || isDeclarationEdge c),
    .optional (.seq (.group 1 accessWords) .blanks1),
    .optional (.seq (.group 2 (.word "static")) .blanks1),
    .optional
      (.seq (.group 3 (.seq (.one Pattern.isNameStart)
        (.many fun c => Pattern.isNamePart c || c == '.'))) .blanks1),
    .word "function",
    .blanks1,
    .group 4 .name,
    .blanks,
    .char '(']

/-- Whether a character opens a bracket of any kind. -/
def isOpening (c : Char) : Bool := c == '(' || c == '[' || c == '{'

/-- Whether a character closes a bracket of any kind. -/
def isClosing (c : Char) : Bool := c == ')' || c == ']' || c == '}'

/-- The pieces of a parameter list between commas outside brackets, each with its offset. The
last piece counts only when no bracket is left open. -/
def pieces : (start offset : Nat) → (depth : Int) → (seen : List Char) → List Char →
    List (Nat × List Char)
  | start, _, depth, seen, [] => if depth ≤ 0 then [(start, seen.reverse)] else []
  | start, offset, depth, seen, c :: rest =>
    if c = ',' ∧ depth ≤ 0 then
      (start, seen.reverse) :: pieces (offset + 1) (offset + 1) depth [] rest
    else
      pieces start (offset + c.utf8Size)
        (if isOpening c then depth + 1 else if isClosing c then depth - 1 else depth)
        (c :: seen) rest

/-- The parameter declared in a piece: words up to an equals sign, the last of them the name. -/
def paramOf? (offset : Nat) (piece : List Char) : Option Param :=
  let all := words (piece.takeWhile (· != '='))
  let required := all.head?.any fun word => sameIgnoringCase word "required".toList
  let tokens := if required then all.drop 1 else all
  tokens.getLast?.map fun name =>
    { name := name
      type := tokens.dropLast.getLast?
      required := required
      offset := offset + byteLength (piece.takeWhile isBlank) }

/-- The parameters of a list that starts at an offset. -/
def paramsOf (offset : Nat) (text : List Char) : List Param :=
  (pieces offset offset 0 [] text).filterMap fun piece => paramOf? piece.1 piece.2

/-- The extent of a body: from the first brace before any semicolon to the brace that closes it,
or to the end when none does. -/
def bodyOf? (offset : Nat) (text : List Char) : Option (Nat × Nat) :=
  let lead := text.takeWhile fun c => c != '{' && c != ';'
  match text.dropWhile fun c => c != '{' && c != ';' with
  | '{' :: rest =>
    let start := offset + byteLength lead + 1
    match splitAtClose '{' '}' 0 rest with
    | some (inside, _) => some (start, start + byteLength inside)
    | none => some (start, start + byteLength rest)
  | _ => none

/-- Parameters and body after an opening parenthesis. -/
def signatureAfter (offset : Nat) (text : List Char) : List Param × Option (Nat × Nat) :=
  match splitAtClose '(' ')' 0 text with
  | none => (paramsOf offset text, none)
  | some (inside, after) =>
    (paramsOf offset inside, bodyOf? (offset + byteLength inside + 1) after)

/-- The declaration whose head was found. -/
def declarationOf? (found : Pattern.Match) : Option FunctionDecl :=
  (found.group? 4).map fun name =>
    let lead := found.text.takeWhile fun c => isBlank c || isDeclarationEdge c
    let signature := signatureAfter found.stop.offset found.stop.rest
    { name := name.text
      access := (found.group? 1).map fun word => loweredWord (String.ofList word.text)
      returnType := ((found.group? 3).map (·.text)).filter fun type =>
        !modifiers.any fun modifier => sameIgnoringCase type modifier.toList
      params := signature.1
      start := found.start.offset + byteLength lead
      nameOffset := name.start
      body := signature.2 }

/-- The function declarations of a masked source, in order. -/
def functionsOf (masked : List Char) : List FunctionDecl :=
  (functionHead.findAll masked).filterMap declarationOf?

end CfmlTidy.Source
