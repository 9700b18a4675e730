import CfmlTidy.Rule.Basic

/-!
# Whitespace rules

Blanks at the end of lines, and runs of blank lines.
-/

namespace CfmlTidy.Rule

/-- Whether a line ends in a blank. -/
def endsBlank (line : List Char) : Bool := line.getLast?.any Text.isBlank

/-- The findings of lines that end in a blank. -/
def trailingFindings (lines : List (List Char)) : List Finding :=
  (Snippet.numbered 1 lines).filterMap fun entry =>
    if endsBlank entry.2 then
      some { Finding.warning ⟨entry.1, entry.2.length⟩ "Line has trailing whitespace" with
        fix := some "Remove the trailing whitespace" }
    else none

/-- Lines must not end in blanks. -/
def trailingWhitespace : Rule :=
  ofFindings "TRAILING_WHITESPACE" Category.style "Lines must not end in whitespace"
    fun subject => if subject.settings.trimTrailing then trailingFindings subject.lines else []

/-- The findings of runs of blank lines longer than a limit. `run` blank lines stand before the
line with this number. -/
def emptyFindings (limit : Nat) : (number run : Nat) → List (List Char) → List Finding
  | _, _, [] => []
  | number, run, line :: rest =>
    if Text.allBlank line then emptyFindings limit (number + 1) (run + 1) rest
    else
      (if limit < run then
        [Finding.info ⟨number, 1⟩
          ("Too many consecutive empty lines (" ++ toString run ++ ", max " ++ toString limit ++
            ")")]
      else []) ++ emptyFindings limit (number + 1) 0 rest

/-- Limits runs of blank lines. A run at the end of a file is not reported. -/
def excessiveEmptyLines : Rule :=
  ofFindings "EXCESSIVE_EMPTY_LINES" Category.style "Limits runs of consecutive blank lines"
    fun subject => emptyFindings subject.settings.maxEmptyLines.toNat 1 0 subject.lines

end CfmlTidy.Rule
