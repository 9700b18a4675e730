import Mathlib
import CfmlTidy.Proofs.Source.Region

/-!
# Masking line by line

Only block comments and comments in markup run over line ends. In a text in which neither is opened,
masking is back in code behind every newline, whatever region the newline stands in, and what it
does before a newline does not depend on what comes after it. The mask of the text is then made up
of the masks of its lines, so an apostrophe in prose hides at most the rest of its line.
-/

namespace CfmlTidy.Source

open CfmlTidy.Text (joinWith joinWith_splitOn splitOn)

/-- A text in which no comment is opened that may run over a line end. -/
def OpensNone (text : List Char) : Prop :=
  ∀ kind ∈ [CommentKind.block, .tag], ¬ kind.opening <:+: text

/-- Whether a region ends at a newline at the latest. -/
def Region.EndsWithLine : Region → Prop
  | .code | .lineComment => True
  | .literal quote => isQuote quote = true
  | .blockComment | .tagComment => False

/-- Behind a character of code is code or a literal, and both end with the line. -/
theorem Region.endsWithLine_afterCode (c : Char) :
    EndsWithLine (if isQuote c then .literal c else .code) := by
  split_ifs with quotes
  · exact quotes
  · trivial

section Lines

variable {region : Region} {text front : List Char}

/-- In a text that opens no comment over line ends, no part of it does. -/
theorem OpensNone.of_infix (unopened : OpensNone text) (within : front <:+: text) :
    OpensNone front :=
  fun kind listed opened => unopened kind listed (opened.trans within)

/-- A text that opens no comment over line ends opens none behind its first character. -/
theorem OpensNone.tail {c : Char} (unopened : OpensNone (c :: text)) : OpensNone text :=
  unopened.of_infix (List.suffix_cons c text).isInfix

/-- A literal that ends with its line has a quote. -/
theorem Region.EndsWithLine.isQuoted (ends : region.EndsWithLine) : region.IsQuoted := by
  cases region with
  | literal => exact ends
  | code | lineComment | blockComment | tagComment => trivial

/-- Behind a newline that ends a region the next line is code. -/
theorem Region.EndsWithLine.nextLine (ends : region.EndsWithLine) : region.nextLine = .code := by
  cases region with
  | code | lineComment | literal => rfl
  | blockComment | tagComment => contradiction

/-- A text in which no comment is opened that may run over a line end leads into no region that
does. -/
theorem Region.EndsWithLine.after (ends : region.EndsWithLine) (unopened : OpensNone front) :
    (region.after front).EndsWithLine := by
  fun_induction Region.after region front with
  | case1 => exact ends
  | case2 rest ih => exact ih trivial unopened.tail.tail
  | case3 rest _ =>
    exact absurd (List.prefix_append ['/', '*'] rest).isInfix (unopened .block (by simp))
  | case4 rest _ =>
    have opened := (List.prefix_append ['<', '!', '-', '-', '-'] rest).isInfix
    exact absurd opened (unopened .tag (by simp))
  | case5 c rest _ _ _ ih => exact ih (Region.endsWithLine_afterCode c) unopened.tail
  | case6 c rest ih =>
    refine ih ?_ unopened.tail
    split_ifs <;> trivial
  | case7 | case8 | case9 | case10 => contradiction
  | case11 => trivial
  | case12 => exact ends
  | case13 quote next rest ih => exact ih trivial unopened.tail
  | case14 quote rest _ ih => exact ih ends unopened.tail.tail
  | case15 quote next rest _ _ ih => exact ih trivial unopened.tail
  | case16 quote c next rest _ _ ih => exact ih ends unopened.tail

/-- Behind a newline masking is in code, and before it masking does not see what follows. -/
theorem maskFrom_newline (ends : region.EndsWithLine) (unopened : OpensNone front)
    (back : List Char) :
    maskFrom region (front ++ '\n' :: back) = maskFrom region front ++ '\n' :: mask back := by
  rw [maskFrom_append (by decide) ends.isQuoted, maskFrom_lineEnd, (ends.after unopened).nextLine,
    mask]

/-- The mask of joined lines is their masks, joined. -/
theorem mask_joinWith {lines : List (List Char)} (unopened : OpensNone (joinWith ['\n'] lines)) :
    mask (joinWith ['\n'] lines) = joinWith ['\n'] (lines.map mask) := by
  induction lines with
  | nil => rfl
  | cons line rest ih =>
    cases rest with
    | nil => rfl
    | cons next more =>
      have split : joinWith ['\n'] (line :: next :: more) =
          line ++ '\n' :: joinWith ['\n'] (next :: more) := by simp [joinWith]
      rw [split] at unopened ⊢
      have later := ih (unopened.of_infix ⟨line ++ ['\n'], [], by simp⟩)
      have first : OpensNone line := unopened.of_infix (List.prefix_append line _).isInfix
      rw [mask, maskFrom_newline (by trivial) first, later]
      simp [joinWith, mask]

end Lines

/-- The mask of a text in which no block comment and no comment in markup is opened is made up of
the masks of its lines. -/
theorem mask_lines {text : List Char} (noBlock : ¬ CommentKind.block.opening <:+: text)
    (noTag : ¬ CommentKind.tag.opening <:+: text) :
    mask text = joinWith ['\n'] ((splitOn '\n' text).map mask) := by
  have unopened : OpensNone text := by simp [OpensNone, noBlock, noTag]
  have whole := joinWith_splitOn '\n' text
  conv_lhs => rw [← whole]
  exact mask_joinWith (whole.symm ▸ unopened)

/-- Prose with an apostrophe, a line comment with another one, and a literal that is not closed
after one that is. -/
def prose : List Char := "don't (do\n// it's \x7b\n'f' \"(\n)".toList

/-- The apostrophe in the first line hides the rest of this line, and the one in the comment hides
nothing more. -/
theorem mask_lines_prose :
    ¬ CommentKind.block.opening <:+: prose ∧ ¬ CommentKind.tag.opening <:+: prose ∧
      mask prose = "don'     \n         \n' ' \" \n)".toList := by
  have noBlock : ¬ CommentKind.block.opening <:+: prose := by decide
  have noTag : ¬ CommentKind.tag.opening <:+: prose := by decide
  refine ⟨noBlock, noTag, ?_⟩
  rw [mask_lines noBlock noTag]
  decide

end CfmlTidy.Source
