import Mathlib
import CfmlTidy.Proofs.Source.Mask

/-!
# Masks are their own masks

A text is bare when masking has nothing left to hide in it: no comment starts in its code, and its
literals hold only spaces. Bare texts are the ones that masking leaves alone, and every mask is
bare, so masking twice is masking once.

That a mask is bare rests on the fact that it covers its source. A comment opening or a quote in the
mask is no space, so it stands at the same place of the source, and there masking saw it as well:
blanking cannot make an opening or double a quote.
-/

namespace CfmlTidy.Source

open CfmlTidy.Script (StartsComment not_startsComment)

/-- A text that hides nothing, read from a region on. -/
inductive Bare : Region → List Char → Prop where
  /-- Nothing is left. -/
  | done (region : Region) : Bare region []
  /-- A character of code where no comment starts; a quote opens a literal. -/
  | code {c : Char} {rest : List Char} (noComment : ¬ StartsComment (c :: rest))
    (more : Bare (if isQuote c then .literal c else .code) rest) : Bare .code (c :: rest)
  /-- A space in a literal. -/
  | space {quote : Char} {rest : List Char} (more : Bare (.literal quote) rest) :
    Bare (.literal quote) (' ' :: rest)
  /-- The quote that closes a literal; it is not doubled. -/
  | closed {quote : Char} {rest : List Char} (single : rest.head? ≠ some quote)
    (more : Bare .code rest) : Bare (.literal quote) (quote :: rest)
  /-- A newline that cuts a literal. -/
  | cut {quote : Char} {rest : List Char} (more : Bare .code rest) :
    Bare (.literal quote) ('\n' :: rest)

namespace Region

/-- A region in the source as it is read in the mask, where comments look like code. -/
def inMask : Region → Region
  | .literal quote => .literal quote
  | .code | .lineComment | .blockComment | .tagComment => .code

/-- A region of which the quote, if it is a literal, is a quote. -/
def IsQuoted : Region → Prop
  | .literal quote => isQuote quote = true
  | .code | .lineComment | .blockComment | .tagComment => True

/-- A literal that a character of code opens has a quote. -/
theorem isQuoted_afterCode (c : Char) : IsQuoted (if isQuote c then .literal c else .code) := by
  split_ifs with quotes
  · exact quotes
  · trivial

/-- Behind a character of code, the source is read in the mask as in itself. -/
theorem inMask_afterCode (c : Char) :
    inMask (if isQuote c then .literal c else .code) = if isQuote c then .literal c else .code := by
  split_ifs <;> rfl

end Region

namespace Covers

variable {masked text : List Char}

/-- A word without spaces at the start of a covering text starts the text. -/
theorem isPrefix {word : List Char} (covers : Covers masked text) (noSpace : ' ' ∉ word)
    (starts : word <+: masked) : word <+: text := by
  induction covers generalizing word with
  | done => exact starts
  | @shown masked text c _ ih =>
    cases word with
    | nil => exact List.nil_prefix
    | cons first others =>
      rw [List.mem_cons, not_or] at noSpace
      obtain ⟨rfl, more⟩ := List.cons_prefix_cons.mp starts
      exact List.cons_prefix_cons.mpr ⟨rfl, ih noSpace.2 more⟩
  | @hidden masked text c _ _ _ =>
    cases word with
    | nil => exact List.nil_prefix
    | cons first others =>
      obtain ⟨before, wide⟩ := Nat.exists_eq_succ_of_ne_zero c.utf8Size_pos.ne'
      rw [wide, List.replicate_succ, List.cons_append] at starts
      obtain ⟨rfl, -⟩ := List.cons_prefix_cons.mp starts
      exact absurd List.mem_cons_self noSpace

/-- A comment that starts in a covering text starts in the text. -/
theorem startsComment (covers : Covers masked text) (starts : StartsComment masked) :
    StartsComment text := by
  obtain ⟨kind, listed, opens⟩ := starts
  refine ⟨kind, listed, covers.isPrefix ?_ opens⟩
  cases kind <;> decide

/-- A quote that starts a covering text starts the text. -/
theorem head?_eq_some {quote : Char} (covers : Covers masked text)
    (quotes : isQuote quote = true) (starts : masked.head? = some quote) :
    text.head? = some quote := by
  have noSpace : ' ' ∉ [quote] := by
    rw [List.mem_singleton]
    rintro rfl
    contradiction
  obtain ⟨rest, rfl⟩ := List.head?_eq_some_iff.mp starts
  obtain ⟨later, rfl⟩ := covers.isPrefix noSpace ⟨rest, rfl⟩
  rfl

end Covers

namespace Bare

variable {region : Region} {text : List Char}

/-- Masking leaves a bare text as it is. -/
theorem masked (bare : Bare region text) (quoted : region.IsQuoted) :
    maskFrom region text = text := by
  induction bare with
  | done region => exact maskFrom_nil region
  | @code c rest noComment _ ih =>
    rw [maskFrom_code noComment, ih (Region.isQuoted_afterCode c)]
  | @space quote rest _ ih =>
    have other : ' ' ≠ quote := by
      rintro rfl
      contradiction
    rw [maskFrom_inside_literal (by decide) other, ih quoted]
    rfl
  | @closed quote rest single _ ih =>
    rw [maskFrom_close_literal (ne_newline_of_isQuote quoted) single, ih trivial]
  | @cut quote rest _ ih => rw [maskFrom_cut_literal, ih trivial]

/-- A blank in code. -/
theorem blank {c : Char} (either : c = ' ' ∨ c = '\n') (bare : Bare .code text) :
    Bare .code (c :: text) := by
  rcases either with rfl | rfl <;>
    exact .code (not_startsComment (by decide) (by decide) text) bare

/-- The blanks that stand for a text in code. -/
theorem behindBlanks (behind : List Char) (bare : Bare .code text) :
    Bare .code (blanks behind ++ text) := by
  have each : ∀ c ∈ blanks behind, c = ' ' ∨ c = '\n' := fun _ => of_mem_blanks
  generalize blanks behind = spaces at each
  induction spaces with
  | nil => exact bare
  | cons c rest ih =>
    obtain ⟨first, others⟩ := List.forall_mem_cons.mp each
    exact (ih others).blank first

/-- The blanks that stand for a character in code. -/
theorem behindBlank (c : Char) (bare : Bare .code text) : Bare .code (blanked c ++ text) := by
  have single := bare.behindBlanks [c]
  rwa [blanks_cons, show blanks [] = [] from rfl, List.append_nil] at single

/-- The spaces that stand for a character in a literal. -/
theorem insideLiteral {quote c : Char} (sameLine : c ≠ '\n') (bare : Bare (.literal quote) text) :
    Bare (.literal quote) (blanked c ++ text) := by
  rw [blanked, if_neg sameLine]
  induction c.utf8Size with
  | zero => exact bare
  | succ count ih => exact ih.space

end Bare

/-- What masking leaves is bare. -/
theorem bare_maskFrom (region : Region) (text : List Char) (quoted : region.IsQuoted) :
    Bare region.inMask (maskFrom region text) := by
  fun_induction maskFrom region text with
  | case1 region => exact .done _
  | case2 rest ih => exact (ih trivial).behindBlanks ['/', '/']
  | case3 rest ih => exact (ih trivial).behindBlanks ['/', '*']
  | case4 rest ih => exact (ih trivial).behindBlanks ['<', '!', '-', '-', '-']
  | case5 c rest noLine noBlock noTag ih =>
    have noComment := not_startsComment_of_forall noLine noBlock noTag
    have covers := (covers_maskFrom (if isQuote c then .literal c else .code) rest).shown c
    have more := ih (Region.isQuoted_afterCode c)
    rw [Region.inMask_afterCode] at more
    exact .code (fun starts => noComment (covers.startsComment starts)) more
  | case6 c rest ih =>
    split_ifs at ih ⊢
    · exact (ih trivial).behindBlank c
    · exact (ih trivial).behindBlank c
  | case7 rest ih => exact (ih trivial).behindBlanks ['*', '/']
  | case8 c rest _ ih => exact (ih trivial).behindBlank c
  | case9 rest ih => exact (ih trivial).behindBlanks ['-', '-', '-', '>']
  | case10 c rest _ ih => exact (ih trivial).behindBlank c
  | case11 c => exact .closed (by simp) (.done _)
  | case12 quote c _ =>
    by_cases newline : c = '\n'
    · rw [newline]
      exact .cut (.done _)
    · have ended := (Bare.done (.literal quote)).insideLiteral newline
      rwa [List.append_nil] at ended
  | case13 quote next rest ih => exact .cut (ih trivial)
  | case14 quote rest sameLine ih =>
    rw [List.append_assoc]
    exact ((ih quoted).insideLiteral sameLine).insideLiteral sameLine
  | case15 quote next rest _ differs ih =>
    have covers := covers_maskFrom .code (next :: rest)
    refine .closed (fun starts => differs ?_) (ih trivial)
    exact Option.some.inj (covers.head?_eq_some quoted starts)
  | case16 quote c next rest sameLine _ ih => exact (ih quoted).insideLiteral sameLine

/-- Masking leaves exactly the bare texts as they are. -/
theorem mask_eq_self_iff (text : List Char) : mask text = text ↔ Bare .code text := by
  constructor
  · intro same
    rw [← same]
    exact bare_maskFrom .code text trivial
  · exact fun bare => bare.masked trivial

/-- Masking a mask changes nothing, and a text is left as it is exactly when it is bare. -/
theorem mask_idempotent (text : List Char) :
    mask (mask text) = mask text ∧ (mask text = text ↔ Bare .code text) :=
  ⟨(bare_maskFrom .code text trivial).masked trivial, mask_eq_self_iff text⟩

-- A literal with a doubled quote, and a stray quote that hides a comment opening.
example : mask "x='it''s'//\n'/*\n*/".toList = "x='     '  \n'  \n*/".toList := by decide

end CfmlTidy.Source
