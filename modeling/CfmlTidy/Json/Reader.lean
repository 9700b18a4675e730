import CfmlTidy.Json.Number

/-!
# Reading JSON

Text is cut into tokens, and the tokens are put together with a stack of the arrays and objects
that are still open. Both steps recurse on their input. Nesting is limited to 127 levels.
-/

namespace CfmlTidy.Json

/-- A token of JSON text. -/
inductive Token where
  /-- An opening brace. -/
  | openObject
  /-- A closing brace. -/
  | closeObject
  /-- An opening bracket. -/
  | openArray
  /-- A closing bracket. -/
  | closeArray
  /-- A comma. -/
  | comma
  /-- A colon. -/
  | colon
  /-- A text. -/
  | text (value : String)
  /-- A number or one of the three words. -/
  | atom (value : Json)

/-- What the reader is in the middle of. -/
inductive Reading where
  /-- Nothing. -/
  | idle
  /-- A text; its characters so far, last first. -/
  | inText (seen : List Char)
  /-- An escape in a text. -/
  | inEscape (seen : List Char)
  /-- A four-digit escape: digits still to come, value so far, and the first half of a pair. -/
  | inUnicode (seen : List Char) (left value : Nat) (high : Option Nat)
  /-- Between the two halves of a pair; whether the backslash was seen. -/
  | inPair (seen : List Char) (high : Nat) (slash : Bool)
  /-- A number; its characters so far, last first. -/
  | inNumber (seen : List Char)
  /-- A word; its characters so far, last first. -/
  | inWord (seen : List Char)

/-- Value of a hexadecimal digit. -/
def hexValue? (c : Char) : Option Nat :=
  if isDigit c then some (digitValue c)
  else if 'a' ≤ c && c ≤ 'f' then some (c.toNat - 'a'.toNat + 10)
  else if 'A' ≤ c && c ≤ 'F' then some (c.toNat - 'A'.toNat + 10)
  else none

/-- The character of a one-letter escape. -/
def escaped? : Char → Option Char
  | '"' => some '"'
  | '\\' => some '\\'
  | '/' => some '/'
  | 'b' => some '\x08'
  | 'f' => some '\x0c'
  | 'n' => some '\n'
  | 'r' => some '\r'
  | 't' => some '\t'
  | _ => none

/-- The value of a word. -/
def ofWord? (word : List Char) : Option Json :=
  if word = ['t', 'r', 'u', 'e'] then some (bool true)
  else if word = ['f', 'a', 'l', 's', 'e'] then some (bool false)
  else if word = ['n', 'u', 'l', 'l'] then some null
  else none

/-- A character of a number. -/
def isNumberChar (c : Char) : Bool :=
  isDigit c || c == '-' || c == '+' || c == '.' || c == 'e' || c == 'E'

/-- A lower case letter of ASCII. -/
def isLetter (c : Char) : Bool := 'a' ≤ c && c ≤ 'z'

/-- Blanks between tokens. -/
def isSpace (c : Char) : Bool := c == ' ' || c == '\n' || c == '\t' || c == '\r'

/-- The token of a single character. -/
def punctuation? : Char → Option Token
  | '\x7b' => some .openObject
  | '\x7d' => some .closeObject
  | '[' => some .openArray
  | ']' => some .closeArray
  | ',' => some .comma
  | ':' => some .colon
  | _ => none

/-- What follows a finished four-digit escape. -/
def afterUnicode? (seen : List Char) (value : Nat) (high : Option Nat) : Option Reading :=
  match high with
  | none =>
    if 0xD800 ≤ value && value < 0xDC00 then some (.inPair seen value false)
    else if 0xDC00 ≤ value && value < 0xE000 then none
    else some (.inText (Char.ofNat value :: seen))
  | some first =>
    if 0xDC00 ≤ value && value < 0xE000 then
      some (.inText
        (Char.ofNat (0x10000 + (first - 0xD800) * 0x400 + (value - 0xDC00)) :: seen))
    else none

/-- Start a token, or skip a blank. -/
def begin? (c : Char) : Option (List Token × Reading) :=
  if isSpace c then some ([], .idle)
  else if c == '"' then some ([], .inText [])
  else if isDigit c || c == '-' then some ([], .inNumber [c])
  else if isLetter c then some ([], .inWord [c])
  else (punctuation? c).map fun token => ([token], .idle)

/-- Finish the token that a character outside texts ends, if one is open. -/
def finish? : Reading → Option (List Token)
  | .idle => some []
  | .inNumber seen => (ofNumberText? seen.reverse).map fun value => [.atom value]
  | .inWord seen => (ofWord? seen.reverse).map fun value => [.atom value]
  | _ => none

/-- Take one character: the tokens it finishes and what the reader is in the middle of. -/
def step? (reading : Reading) (c : Char) : Option (List Token × Reading) :=
  match reading with
  | .inText seen =>
    if c == '"' then some ([.text (String.ofList seen.reverse)], .idle)
    else if c == '\\' then some ([], .inEscape seen)
    else if c.toNat < 0x20 then none
    else some ([], .inText (c :: seen))
  | .inEscape seen =>
    if c == 'u' then some ([], .inUnicode seen 4 0 none)
    else (escaped? c).map fun plain => ([], .inText (plain :: seen))
  | .inUnicode seen left value high => do
    let digit ← hexValue? c
    if left ≤ 1 then
      let next ← afterUnicode? seen (value * 16 + digit) high
      some ([], next)
    else some ([], .inUnicode seen (left - 1) (value * 16 + digit) high)
  | .inPair seen high slash =>
    if slash then if c == 'u' then some ([], .inUnicode seen 4 0 (some high)) else none
    else if c == '\\' then some ([], .inPair seen high true)
    else none
  | .inNumber seen =>
    if isNumberChar c then some ([], .inNumber (c :: seen))
    else do
      let done ← finish? reading
      let (more, next) ← begin? c
      some (done ++ more, next)
  | .inWord seen =>
    if isLetter c then some ([], .inWord (c :: seen))
    else do
      let done ← finish? reading
      let (more, next) ← begin? c
      some (done ++ more, next)
  | .idle => begin? c

/-- The tokens of a text, unless a character fits no token. -/
def tokensFrom? : Reading → List Char → Option (List Token)
  | reading, [] => finish? reading
  | reading, c :: rest => do
    let (done, next) ← step? reading c
    let others ← tokensFrom? next rest
    some (done ++ others)

/-- An array or object that is still open. -/
inductive Frame where
  /-- An array; its items so far, last first. -/
  | array (items : List Json)
  /-- An object; its fields so far, last first, and the key whose value comes next. -/
  | object (fields : List (String × Json)) (key : String)

/-- What may come next. -/
inductive Expecting where
  /-- A value. -/
  | value
  /-- A value or the end of the array just opened. -/
  | firstItem
  /-- A key or the end of the object just opened; no fields yet. -/
  | firstKey
  /-- A key after a comma; the fields so far. -/
  | key (fields : List (String × Json))
  /-- The colon after a key. -/
  | colon (fields : List (String × Json)) (key : String)
  /-- A comma or the end of what is open, after this value. -/
  | after (value : Json)

/-- The deepest nesting that is read. -/
def maxDepth : Nat := 127

/-- Put tokens together under the open arrays and objects. -/
def assemble? : Expecting → List Frame → List Token → Option Json
  | .after value, [], [] => some value
  | _, _, [] => none
  | .after value, frames, token :: rest =>
    match frames, token with
    | .array items :: outer, .comma => assemble? .value (.array (value :: items) :: outer) rest
    | .array items :: outer, .closeArray =>
      assemble? (.after (arr (value :: items).reverse)) outer rest
    | .object fields key :: outer, .comma => assemble? (.key ((key, value) :: fields)) outer rest
    | .object fields key :: outer, .closeObject =>
      assemble? (.after (Json.object ((key, value) :: fields).reverse)) outer rest
    | _, _ => none
  | .firstKey, frames, .closeObject :: rest => assemble? (.after (obj [])) frames rest
  | .firstKey, frames, .text key :: rest => assemble? (.colon [] key) frames rest
  | .key fields, frames, .text key :: rest => assemble? (.colon fields key) frames rest
  | .colon fields key, frames, .colon :: rest =>
    assemble? .value (.object fields key :: frames) rest
  | .firstItem, frames, .closeArray :: rest => assemble? (.after (arr [])) (frames.drop 1) rest
  | expecting, frames, token :: rest =>
    match expecting with
    | .value | .firstItem =>
      match token with
      | .text value => assemble? (.after (str value)) frames rest
      | .atom value => assemble? (.after value) frames rest
      | .openArray =>
        if frames.length < maxDepth then assemble? .firstItem (.array [] :: frames) rest else none
      | .openObject =>
        if frames.length < maxDepth then assemble? .firstKey frames rest else none
      | _ => none
    | _ => none

/-- The value written in a text. -/
def parse? (text : String) : Option Json := do
  let tokens ← tokensFrom? .idle text.toList
  assemble? .value [] tokens

end CfmlTidy.Json
