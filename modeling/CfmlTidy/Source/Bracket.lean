import CfmlTidy.Text.Lines

/-!
# Brackets

Pairs of brackets, and the bracket that closes a given one. Only brackets of the same kind count
when a partner is looked for.
-/

namespace CfmlTidy.Source

/-- The bracket that closes an opening one. -/
def closerOf? : Char → Option Char
  | '(' => some ')'
  | '[' => some ']'
  | '{' => some '}'
  | _ => none

/-- Cut a text at the bracket that closes one opened before it. `depth` further brackets of the
kind are open; the result is the text before the closing bracket and the text after it. -/
def splitAtClose (opening closing : Char) : Nat → List Char → Option (List Char × List Char)
  | _, [] => none
  | depth, c :: rest =>
    if c = opening then
      (splitAtClose opening closing (depth + 1) rest).map fun cut => (c :: cut.1, cut.2)
    else if c = closing then
      match depth with
      | 0 => some ([], rest)
      | outer + 1 => (splitAtClose opening closing outer rest).map fun cut => (c :: cut.1, cut.2)
    else (splitAtClose opening closing depth rest).map fun cut => (c :: cut.1, cut.2)

/-- The byte offset of the bracket that closes the one at a byte offset. -/
def matchingClose? (text : List Char) (offset : Nat) : Option Nat := do
  match ← Text.dropBytes offset text with
  | [] => none
  | opening :: rest =>
    let closing ← closerOf? opening
    let cut ← splitAtClose opening closing 0 rest
    some (offset + 1 + Text.byteLength cut.1)

end CfmlTidy.Source
