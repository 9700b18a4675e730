import CfmlTidy.Parse.Result
import CfmlTidy.Source.Mask

/-!
# Lexemes of script source

Script source is a sequence of comments, quoted literals, brackets and other characters. A script
block in markup may be followed by further text, and a comment that starts in the block may end
in that text; the block ends with it.
-/

namespace CfmlTidy.Script

/-- A lexeme of script source. -/
inductive Lexeme where
  /-- A comment with the text between its delimiters. -/
  | comment (kind : CommentKind) (body : List Char)
  /-- A comment that is never closed. -/
  | openComment (kind : CommentKind)
  /-- A literal with its quotes. -/
  | literal (text : List Char)
  /-- A literal that is never closed. -/
  | openLiteral
  /-- An opening or closing bracket. -/
  | bracket (c : Char)
  /-- Any other character. -/
  | plain (c : Char)
deriving Repr, DecidableEq

/-- A lexeme and the byte offset at which it starts. -/
structure Placed where
  /-- Byte offset of the first character. -/
  offset : Nat
  /-- The lexeme. -/
  lexeme : Lexeme
deriving Repr, DecidableEq

/-- Cut a text at the first occurrence of a delimiter: the text before it and the text after. -/
def cutAt? (delimiter : List Char) : List Char → Option (List Char × List Char)
  | [] => if delimiter.isEmpty then some ([], []) else none
  | c :: rest =>
    if delimiter.isPrefixOf (c :: rest) then some ([], (c :: rest).drop delimiter.length)
    else (cutAt? delimiter rest).map fun cut => (c :: cut.1, cut.2)

/-- What is left after a cut, together with the delimiter and what came before, is the text. -/
theorem cutAt?_eq_some {delimiter text before after : List Char}
    (found : cutAt? delimiter text = some (before, after)) :
    text = before ++ delimiter ++ after := by
  induction text generalizing before with
  | nil =>
    cases delimiter with
    | nil =>
      simp only [cutAt?, List.isEmpty_nil, if_true, Option.some.injEq, Prod.mk.injEq] at found
      simp [← found.1, ← found.2]
    | cons head tail => simp [cutAt?] at found
  | cons c rest step =>
    by_cases here : delimiter.isPrefixOf (c :: rest) = true
    · simp only [cutAt?, here, if_true, Option.some.injEq, Prod.mk.injEq] at found
      obtain ⟨rfl, rfl⟩ := found
      have split := List.prefix_iff_eq_append.1 (List.isPrefixOf_iff_prefix.1 here)
      simpa using split.symm
    · cases later : cutAt? delimiter rest with
      | none => simp [cutAt?, here, later] at found
      | some cut =>
        simp only [cutAt?, here, later, Option.map_some] at found
        obtain ⟨rfl, rfl⟩ := Prod.mk.inj (Option.some.inj found)
        simp [step later]

/-- The end of a literal: the text up to and including its closing quote, and the text after. -/
def cutLiteral? (quote : Char) : List Char → Option (List Char × List Char)
  | [] => none
  | [c] => if c = quote then some ([c], []) else none
  | c :: next :: rest =>
    if c = quote then
      if next = quote then
        (cutLiteral? quote rest).map fun cut => (c :: next :: cut.1, cut.2)
      else some ([c], next :: rest)
    else (cutLiteral? quote (next :: rest)).map fun cut => (c :: cut.1, cut.2)

/-- What is left after a literal is shorter than what stood after its opening quote. -/
theorem length_after_literal {quote : Char} {text literal after : List Char}
    (found : cutLiteral? quote text = some (literal, after)) : after.length < text.length := by
  fun_induction cutLiteral? quote text generalizing literal with
  | case1 => simp at found
  | case2 =>
    obtain ⟨-, rfl⟩ := Prod.mk.inj (Option.some.inj found)
    simp
  | case3 c other => simp at found
  | case4 rest step =>
    obtain ⟨cut, later, same⟩ := Option.map_eq_some_iff.1 found
    obtain ⟨-, rfl⟩ := Prod.mk.inj same
    have shorter := step later
    simp only [List.length_cons]
    omega
  | case5 next rest other =>
    obtain ⟨-, rfl⟩ := Prod.mk.inj (Option.some.inj found)
    simp
  | case6 c next rest other step =>
    obtain ⟨cut, later, same⟩ := Option.map_eq_some_iff.1 found
    obtain ⟨-, rfl⟩ := Prod.mk.inj same
    have shorter := step later
    simp only [List.length_cons] at shorter ⊢
    omega

/-- The kind of the comment that a text starts with. -/
def commentKind? : List Char → Option CommentKind
  | '/' :: '/' :: _ => some .line
  | '/' :: '*' :: '*' :: '/' :: _ => some .block
  | '/' :: '*' :: '*' :: _ => some .doc
  | '/' :: '*' :: _ => some .block
  | '<' :: '!' :: '-' :: '-' :: '-' :: _ => some .tag
  | _ => none

/-- A comment has a first character. -/
theorem opening_length_pos (kind : CommentKind) : 0 < kind.opening.length := by
  cases kind <;> decide

/-- Whether a character is a bracket. -/
def isBracket (c : Char) : Bool :=
  c == '(' || c == '[' || c == '{' || c == ')' || c == ']' || c == '}'

/-- The part of what follows a comment that still belongs to the block before `beyond`. -/
def stillInside (after beyond : List Char) : List Char :=
  after.take (after.length - beyond.length)

/-- What follows a comment inside a block is shorter than the block. -/
theorem length_stillInside {kind : CommentKind} {c : Char} {rest beyond body after : List Char}
    (found : cutAt? kind.closing ((c :: rest).drop kind.opening.length ++ beyond) =
      some (body, after)) :
    (stillInside after beyond).length < (c :: rest).length := by
  have total := congrArg List.length (cutAt?_eq_some found)
  have first := opening_length_pos kind
  simp only [List.length_append, List.length_drop, List.length_cons, stillInside,
    List.length_take] at total ⊢
  omega

/-- The lexemes of a block that starts at an offset and is followed by `beyond`. A comment or
literal that is never closed is the last lexeme. -/
def scan (offset : Nat) (inside beyond : List Char) : List Placed :=
  match inside with
  | [] => []
  | c :: rest =>
    match commentKind? (c :: rest) with
    | some .line =>
      let body := (rest.drop 1).takeWhile (· != '\n')
      ⟨offset, .comment .line body⟩ ::
        scan (offset + 2 + Text.byteLength body) ((rest.drop 1).dropWhile (· != '\n')) beyond
    | some kind =>
      match _found : cutAt? kind.closing ((c :: rest).drop kind.opening.length ++ beyond) with
      | none => [⟨offset, .openComment kind⟩]
      | some (body, after) =>
        ⟨offset, .comment kind body⟩ ::
          scan (offset + Text.byteLength (kind.opening ++ body ++ kind.closing))
            (stillInside after beyond) beyond
    | none =>
      if Source.isQuote c then
        match _found : cutLiteral? c rest with
        | none => [⟨offset, .openLiteral⟩]
        | some (text, after) =>
          ⟨offset, .literal (c :: text)⟩ ::
            scan (offset + Text.byteLength (c :: text)) after beyond
      else
        ⟨offset, if isBracket c then .bracket c else .plain c⟩ ::
          scan (offset + c.utf8Size) rest beyond
termination_by inside.length
decreasing_by
  · have shorter := (List.dropWhile_sublist (· != '\n') (l := rest.drop 1)).length_le
    simp only [List.length_drop, List.length_cons] at shorter ⊢
    omega
  · exact length_stillInside _found
  · have shorter := length_after_literal _found
    simp only [List.length_cons]
    omega
  · simp

end CfmlTidy.Script
