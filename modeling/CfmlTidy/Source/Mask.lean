/-!
# Masking

Blanks out what is not code: comment text and the inside of quoted literals become spaces, one
for each byte, while newlines and the quotes themselves stay. Offsets and lines of the result are
therefore those of the source.
-/

namespace CfmlTidy.Source

/-- What the text at a place belongs to. -/
inductive Region where
  /-- Code. -/
  | code
  /-- A comment that ends with its line. -/
  | lineComment
  /-- A comment between a slash with a star and a star with a slash. -/
  | blockComment
  /-- A comment in markup with three hyphens. -/
  | tagComment
  /-- A literal in the given quotes; a doubled quote is part of it, and a newline ends it. -/
  | literal (quote : Char)
deriving Repr, DecidableEq

/-- The blanks that stand for a character: one per byte, but a newline stays. -/
def blanked (c : Char) : List Char :=
  if c = '\n' then ['\n'] else List.replicate c.utf8Size ' '

/-- Whether a character opens a literal. -/
def isQuote (c : Char) : Bool := c == '"' || c == '\''

/-- Mask a text whose first character lies in a region. -/
def maskFrom : Region → List Char → List Char
  | _, [] => []
  | .code, '/' :: '/' :: rest => ' ' :: ' ' :: maskFrom .lineComment rest
  | .code, '/' :: '*' :: rest => ' ' :: ' ' :: maskFrom .blockComment rest
  | .code, '<' :: '!' :: '-' :: '-' :: '-' :: rest =>
    ' ' :: ' ' :: ' ' :: ' ' :: ' ' :: maskFrom .tagComment rest
  | .code, c :: rest => c :: maskFrom (if isQuote c then .literal c else .code) rest
  | .lineComment, c :: rest =>
    blanked c ++ maskFrom (if c = '\n' then .code else .lineComment) rest
  | .blockComment, '*' :: '/' :: rest => ' ' :: ' ' :: maskFrom .code rest
  | .blockComment, c :: rest => blanked c ++ maskFrom .blockComment rest
  | .tagComment, '-' :: '-' :: '-' :: '>' :: rest =>
    ' ' :: ' ' :: ' ' :: ' ' :: maskFrom .code rest
  | .tagComment, c :: rest => blanked c ++ maskFrom .tagComment rest
  | .literal quote, [c] => if c = quote then [c] else blanked c
  | .literal quote, c :: next :: rest =>
    if c = '\n' then c :: maskFrom .code (next :: rest)
    else if c = quote then
      if next = quote then blanked c ++ blanked next ++ maskFrom (.literal quote) rest
      else c :: maskFrom .code (next :: rest)
    else blanked c ++ maskFrom (.literal quote) (next :: rest)

/-- Nothing masks nothing, wherever it lies. -/
theorem maskFrom_nil (region : Region) : maskFrom region [] = [] := by
  rw [maskFrom]

/-- Mask a whole source. -/
def mask (text : List Char) : List Char := maskFrom .code text

end CfmlTidy.Source
