import CfmlTidy.Text.Lines

/-!
# Layout

The whitespace layout that formatting brings a text into: newlines as the only line ends, tabs
expanded, no trailing spaces, at most one empty line in a row, none at the end, and a newline
after the last line.
-/

namespace CfmlTidy.Layout

open CfmlTidy.Text

/-- Line ends as newlines: a carriage return and newline, or a carriage return alone. -/
def unifyEnds : List Char → List Char
  | [] => []
  | '\r' :: '\n' :: rest => '\n' :: unifyEnds rest
  | c :: rest => (if c = '\r' then '\n' else c) :: unifyEnds rest

/-- Every tab as `width` spaces. -/
def expandTabs (width : Nat) (line : List Char) : List Char :=
  line.flatMap fun c => if c = '\t' then List.replicate width ' ' else [c]

/-- One line with its tabs expanded and its trailing spaces dropped. -/
def cleanLine (indent : Nat) (line : List Char) : List Char :=
  dropEndWhile (· == ' ') (expandTabs (max indent 1) line)

/-- The lines of a text, each cleaned. -/
def cleanLines (indent : Nat) (text : List Char) : List (List Char) :=
  (splitOn '\n' (unifyEnds text)).map (cleanLine indent)

/-- The lines without those empty lines that follow an empty line. -/
def collapse : List (List Char) → List (List Char)
  | [] => []
  | line :: rest =>
    if line.isEmpty && (rest.head?.any List.isEmpty) then collapse rest else line :: collapse rest

/-- Every line followed by a newline. -/
def unlines (lines : List (List Char)) : List Char :=
  lines.flatMap (· ++ ['\n'])

/-- The text in its layout; text made of blanks only becomes empty. -/
def format (indent : Nat) (text : List Char) : List Char :=
  let lines := dropTrailingEmpty (collapse (cleanLines indent text))
  if lines.all allBlank then [] else unlines lines

end CfmlTidy.Layout
