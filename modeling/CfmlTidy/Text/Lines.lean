import CfmlTidy.Text.Blank

/-!
# Lines and positions

A text splits into lines at newlines, and a carriage return that ends a line belongs to the line
end. A position is a line and a column, both counted from one; offsets count the bytes of the
text in UTF-8, and columns count characters.
-/

namespace CfmlTidy.Text

/-- A place in a text: line and column, both counted from one. -/
structure Position where
  /-- Line, counted from one. -/
  line : Nat
  /-- Column, counted from one. -/
  column : Nat
deriving Repr, DecidableEq, Inhabited

/-- The first place of a text. -/
def Position.start : Position := ⟨1, 1⟩

/-- Number of bytes of a text in UTF-8. -/
def byteLength : List Char → Nat
  | [] => 0
  | c :: rest => c.utf8Size + byteLength rest

/-- A line without the carriage return that may end it. -/
def stripReturn (line : List Char) : List Char :=
  if line.getLast? = some '\r' then line.dropLast else line

/-- The list without the empty lines at its end. -/
def dropTrailingEmpty (lines : List (List Char)) : List (List Char) :=
  (lines.reverse.dropWhile List.isEmpty).reverse

/-- The lines of a text, without line ends and without empty lines at the end. -/
def splitLines (text : List Char) : List (List Char) :=
  dropTrailingEmpty ((splitOn '\n' text).map stripReturn)

/-- Number of lines counting the text after the last newline as one. -/
def lineCount (text : List Char) : Nat :=
  text.count '\n' + 1

/-- Walk towards a byte offset. `seen` is the offset reached, `line` and `column` its place, and
`lineStart` the offset at which its line starts. An offset inside a character takes its column
from the bytes since the start of the line. -/
def positionFrom (offset : Nat) : (seen line column lineStart : Nat) → List Char → Position
  | _, line, column, _, [] => ⟨line, column⟩
  | seen, line, column, lineStart, c :: rest =>
    if offset ≤ seen then ⟨line, column⟩
    else if offset < seen + c.utf8Size then ⟨line, offset - lineStart + 1⟩
    else if c = '\n' then
      positionFrom offset (seen + c.utf8Size) (line + 1) 1 (seen + c.utf8Size) rest
    else positionFrom offset (seen + c.utf8Size) line (column + 1) lineStart rest

/-- The place of a byte offset; an offset past the end is the end. -/
def positionAt (text : List Char) (offset : Nat) : Position :=
  positionFrom offset 0 1 1 0 text

/-- The text from a byte offset on, when the offset lies between two characters. -/
def dropBytes : Nat → List Char → Option (List Char)
  | 0, text => some text
  | _ + 1, [] => none
  | offset + 1, c :: rest =>
    if c.utf8Size ≤ offset + 1 then dropBytes (offset + 1 - c.utf8Size) rest else none
termination_by structural _ text => text

/-- The first characters of a text whose bytes number exactly `count`. -/
def takeBytes : Nat → List Char → Option (List Char)
  | 0, _ => some []
  | _ + 1, [] => none
  | count + 1, c :: rest =>
    if c.utf8Size ≤ count + 1 then (takeBytes (count + 1 - c.utf8Size) rest).map (c :: ·)
    else none
termination_by structural _ text => text

/-- The text between two byte offsets, when both lie between characters and are in order. -/
def sliceBytes (start stop : Nat) (text : List Char) : Option (List Char) :=
  if start ≤ stop then (dropBytes start text).bind (takeBytes (stop - start)) else none

end CfmlTidy.Text
