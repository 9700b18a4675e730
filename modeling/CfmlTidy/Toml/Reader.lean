import CfmlTidy.Toml.Scalar
import CfmlTidy.Toml.Table

/-!
# Reading TOML

A document is a sequence of lines, each with a header, a key and its value, or nothing. Reading
functions take text from the front and return what follows. Values nest, so reading one takes a
bound on the nesting and length of what is read; the length of the text is one.
-/

namespace CfmlTidy.Toml

open CfmlTidy.Json (isDigit hexValue?)

/-- Blanks inside a line. -/
def isSpace (c : Char) : Bool := c == ' ' || c == '\t'

/-- Drop blanks inside a line. -/
def skipSpace (text : List Char) : List Char := text.dropWhile isSpace

/-- A character that may stand in comments and texts: no control character but the tab. -/
def isAllowed (c : Char) : Bool := (0x20 ≤ c.toNat && c.toNat != 0x7F) || c == '\t'

/-- Drop a comment up to the end of its line, unless it has a character that may not stand there. -/
def skipComment? : List Char → Option (List Char)
  | '#' :: rest =>
    match rest.dropWhile isAllowed with
    | [] => some []
    | '\n' :: after => some ('\n' :: after)
    | '\r' :: '\n' :: after => some ('\n' :: after)
    | _ => none
  | rest => some rest

/-- Drop a newline. -/
def newline? : List Char → Option (List Char)
  | '\n' :: rest => some rest
  | '\r' :: '\n' :: rest => some rest
  | _ => none

/-- Drop blanks, comments and newlines. -/
def skipLines? : Nat → List Char → Option (List Char)
  | 0, text => some text
  | fuel + 1, text => do
    let rest ← skipComment? (skipSpace text)
    match newline? rest with
    | some after => skipLines? fuel after
    | none => some rest

/-- The end of a line: blanks, a comment, and a newline or the end of the text. -/
def endLine? (text : List Char) : Option (List Char) := do
  let rest ← skipComment? (skipSpace text)
  match rest with
  | [] => some []
  | _ => newline? rest

/-- The character of an escape with hexadecimal digits, and what follows. -/
def hexEscape? (count : Nat) (text : List Char) : Option (Char × List Char) :=
  let digits := text.take count
  let value := natOf 16 digits
  if digits.length = count && digits.all (isDigitOf 16) && value.isValidChar then
    some (Char.ofNat value, text.drop count)
  else none

/-- The character of an escape after its backslash, and what follows. -/
def escape? : List Char → Option (Char × List Char)
  | 'b' :: rest => some ('\x08', rest)
  | 't' :: rest => some ('\t', rest)
  | 'n' :: rest => some ('\n', rest)
  | 'f' :: rest => some ('\x0c', rest)
  | 'r' :: rest => some ('\r', rest)
  | 'e' :: rest => some ('\x1b', rest)
  | '"' :: rest => some ('"', rest)
  | '\\' :: rest => some ('\\', rest)
  | 'x' :: rest => hexEscape? 2 rest
  | 'u' :: rest => hexEscape? 4 rest
  | 'U' :: rest => hexEscape? 8 rest
  | _ => none

/-- A text in double quotes, after the opening quote; its characters so far are reversed. -/
def basicText? : Nat → List Char → List Char → Option (String × List Char)
  | 0, _, _ => none
  | _, _, [] => none
  | _, seen, '"' :: rest => some (String.ofList seen.reverse, rest)
  | fuel + 1, seen, '\\' :: rest => do
    let (c, after) ← escape? rest
    basicText? fuel (c :: seen) after
  | fuel + 1, seen, c :: rest => if isAllowed c then basicText? fuel (c :: seen) rest else none

/-- A text in single quotes, after the opening quote. -/
def literalText? (text : List Char) : Option (String × List Char) :=
  let body := text.takeWhile fun c => c != '\'' && isAllowed c
  match text.dropWhile fun c => c != '\'' && isAllowed c with
  | '\'' :: rest => some (String.ofList body, rest)
  | _ => none

/-- Drop the newline that may follow the opening quotes of a text over several lines. -/
def skipFirstNewline (text : List Char) : List Char := (newline? text).getD text

/-- Number of quotes that a text starts with, up to five. -/
def quoteCount (quote : Char) (text : List Char) : Nat :=
  ((text.take 5).takeWhile (· == quote)).length

/-- Drop blanks and newlines. -/
def skipBlank : List Char → List Char
  | [] => []
  | '\r' :: '\n' :: rest => skipBlank rest
  | c :: rest => if isSpace c || c == '\n' then skipBlank rest else c :: rest

/-- What follows a backslash at the end of a line: blanks and newlines are dropped. -/
def afterLineEnd? (text : List Char) : Option (List Char) :=
  (newline? (skipSpace text)).map skipBlank

/-- A text in three double quotes, after them; its characters so far are reversed. -/
def longBasicText? : Nat → List Char → List Char → Option (String × List Char)
  | 0, _, _ => none
  | _, _, [] => none
  | fuel + 1, seen, '"' :: rest =>
    let count := quoteCount '"' ('"' :: rest)
    if 3 ≤ count then
      some (String.ofList (List.replicate (count - 3) '"' ++ seen).reverse,
        ('"' :: rest).drop count)
    else longBasicText? fuel ('"' :: seen) rest
  | fuel + 1, seen, '\\' :: rest =>
    match afterLineEnd? rest with
    | some after => longBasicText? fuel seen after
    | none => do
      let (c, after) ← escape? rest
      longBasicText? fuel (c :: seen) after
  | fuel + 1, seen, '\r' :: '\n' :: rest => longBasicText? fuel ('\n' :: '\r' :: seen) rest
  | fuel + 1, seen, c :: rest =>
    if isAllowed c || c = '\n' then longBasicText? fuel (c :: seen) rest else none

/-- A text in three single quotes, after them; its characters so far are reversed. -/
def longLiteralText? : List Char → List Char → Option (String × List Char)
  | _, [] => none
  | seen, '\r' :: '\n' :: rest => longLiteralText? ('\n' :: '\r' :: seen) rest
  | seen, c :: rest =>
    let count := quoteCount '\'' (c :: rest)
    if 3 ≤ count then
      some (String.ofList (List.replicate (count - 3) '\'' ++ seen).reverse,
        (c :: rest).drop count)
    else if isAllowed c || c = '\n' then longLiteralText? (c :: seen) rest
    else none

/-- A character of a key without quotes. -/
def isBareKey (c : Char) : Bool :=
  isDigit c || ('a' ≤ c && c ≤ 'z') || ('A' ≤ c && c ≤ 'Z') || c == '_' || c == '-'

/-- One key, and what follows. -/
def simpleKey? (text : List Char) : Option (String × List Char) :=
  match text with
  | '"' :: rest => basicText? (rest.length + 1) [] rest
  | '\'' :: rest => literalText? rest
  | _ =>
    let word := text.takeWhile isBareKey
    if word.isEmpty then none else some (String.ofList word, text.dropWhile isBareKey)

/-- A dotted key, and what follows it and the blanks after it. -/
def dottedKey? : Nat → List Char → Option (List String × List Char)
  | 0, _ => none
  | fuel + 1, text => do
    let (key, rest) ← simpleKey? (skipSpace text)
    match skipSpace rest with
    | '.' :: after => do
      let (keys, last) ← dottedKey? fuel after
      some (key :: keys, last)
    | last => some ([key], last)

/-- The deepest nesting of arrays and tables that is read, and the most keys of a dotted key. -/
def maxDepth : Nat := 80

/-- A dotted key with no more keys than are allowed, and what follows it and the blanks after it. -/
def keyPath? (text : List Char) : Option (List String × List Char) := do
  let (keys, rest) ← dottedKey? (text.length + 1) text
  if maxDepth < keys.length then none else some (keys, rest)

/-- A character of a scalar without quotes. -/
def isScalarChar (c : Char) : Bool := isBareKey c || c == '+' || c == '.' || c == ':'

/-- A scalar without quotes. A date may be followed by a blank and a time. -/
def bareScalar? (text : List Char) : Option (Json × List Char) := do
  let word := text.takeWhile isScalarChar
  let rest := text.dropWhile isScalarChar
  let (full, last) :=
    match Date.read? word, rest with
    | some (_, []), ' ' :: c :: after =>
      if isDigit c then
        (word ++ ' ' :: (c :: after).takeWhile isScalarChar, (c :: after).dropWhile isScalarChar)
      else (word, rest)
    | _, _ => (word, rest)
  let value ← scalar? full
  some (value, last)

mutual

/-- A value, and what follows. -/
def value? (depth : Nat) : Nat → List Char → Option (Json × List Char)
  | 0, _ => none
  | fuel + 1, text =>
    match text with
    | '"' :: '"' :: '"' :: rest => do
      let body := skipFirstNewline rest
      let (content, last) ← longBasicText? (body.length + 1) [] body
      some (.str content, last)
    | '"' :: rest => do
      let (content, last) ← basicText? (rest.length + 1) [] rest
      some (.str content, last)
    | '\'' :: '\'' :: '\'' :: rest => do
      let (content, last) ← longLiteralText? [] (skipFirstNewline rest)
      some (.str content, last)
    | '\'' :: rest => do
      let (content, last) ← literalText? rest
      some (.str content, last)
    | '[' :: rest =>
      if maxDepth ≤ depth then none
      else do
        let (items, last) ← items? (depth + 1) fuel rest
        some (.arr items, last)
    | '{' :: rest =>
      if maxDepth ≤ depth then none
      else do
        let (pairs, last) ← pairs? (depth + 1) fuel rest
        let table ← inlineTable? pairs
        some (table, last)
    | _ => bareScalar? text

/-- The items of an array after its bracket or a comma, and what follows the array. -/
def items? (depth : Nat) : Nat → List Char → Option (List Json × List Char)
  | 0, _ => none
  | fuel + 1, text => do
    let start ← skipLines? (text.length + 1) text
    match start with
    | ']' :: rest => some ([], rest)
    | _ =>
      let (item, rest) ← value? depth fuel start
      let after ← skipLines? (rest.length + 1) rest
      match after with
      | ',' :: more => do
        let (others, last) ← items? depth fuel more
        some (item :: others, last)
      | ']' :: last => some ([item], last)
      | _ => none

/-- The pairs of a table in braces after its brace or a comma, and what follows the table. Newlines
and comments may stand anywhere but inside a dotted key. -/
def pairs? (depth : Nat) : Nat → List Char → Option (List (List String × Json) × List Char)
  | 0, _ => none
  | fuel + 1, text => do
    let start ← skipLines? (text.length + 1) text
    match start with
    | '}' :: rest => some ([], rest)
    | _ =>
      let (keys, rest) ← keyPath? start
      let middle ← skipLines? (rest.length + 1) rest
      match middle with
      | '=' :: body => do
        let first ← skipLines? (body.length + 1) body
        let (value, rest) ← value? depth fuel first
        let after ← skipLines? (rest.length + 1) rest
        match after with
        | ',' :: more => do
          let (others, last) ← pairs? depth fuel more
          some ((keys, value) :: others, last)
        | '}' :: last => some ([(keys, value)], last)
        | _ => none
      | _ => none

end

/-- A line of a document. -/
inductive Line where
  /-- A key and its value. -/
  | pair (keys : List String) (value : Json)
  /-- A header. -/
  | header (path : List String) (isList : Bool)

/-- A line that is not empty, and what follows it. -/
def line? (text : List Char) : Option (Line × List Char) :=
  match text with
  | '[' :: '[' :: rest => do
    let (path, after) ← keyPath? rest
    match after with
    | ']' :: ']' :: last => do
      let next ← endLine? last
      some (.header path true, next)
    | _ => none
  | '[' :: rest => do
    let (path, after) ← keyPath? rest
    match after with
    | ']' :: last => do
      let next ← endLine? last
      some (.header path false, next)
    | _ => none
  | _ => do
    let (keys, rest) ← keyPath? text
    match rest with
    | '=' :: body => do
      let (value, after) ← value? 0 (body.length + 1) (skipSpace body)
      let next ← endLine? after
      some (.pair keys value, next)
    | _ => none

/-- The lines of a document. -/
def lines? : Nat → List Char → Option (List Line)
  | 0, _ => none
  | fuel + 1, text => do
    let start ← skipLines? (text.length + 1) text
    if start.isEmpty then some []
    else
      let (line, rest) ← line? start
      let others ← lines? fuel rest
      some (line :: others)

/-- The keys before the first header, and the headers with the keys below them. -/
def parts : List Line → List (List String × Json) × List Part
  | [] => ([], [])
  | .pair keys value :: rest => ((keys, value) :: (parts rest).1, (parts rest).2)
  | .header path isList :: rest => ([], ⟨path, isList, (parts rest).1⟩ :: (parts rest).2)

/-- The document of a text. A byte-order mark at the start is skipped. -/
def parse? (text : String) : Option Json := do
  let body :=
    match text.toList with
    | '\uFEFF' :: rest => rest
    | other => other
  let lines ← lines? (body.length + 1) body
  let (pairs, sections) := parts lines
  assemble? pairs sections

end CfmlTidy.Toml
