import Mathlib
import CfmlTidy.Source.Bracket

/-!
# Nested words of brackets

A word of brackets is nested when brackets come in pairs of one kind that do not cross. `Nested`
says so as a grammar, without a stack. `closes` reads a word from left to right with a stack of the
brackets that are still open, as a reader of source does, and `nested_iff_closes` makes the two
the same.
-/

namespace CfmlTidy.Source

/-- Words of brackets in which every bracket has its partner and pairs do not cross. -/
inductive Nested : List Char → Prop where
  /-- Nothing is nested. -/
  | empty : Nested []
  /-- A pair around a nested word, with a nested word behind it. -/
  | pair {opening closing : Char} {inner rest : List Char}
    (partners : closerOf? opening = some closing) (inside : Nested inner) (behind : Nested rest) :
    Nested (opening :: inner ++ closing :: rest)

/-- Read a word while brackets are open, innermost first: whether each is closed by its partner
and no others stay open. -/
def closes : List Char → List Char → Bool
  | stack, [] => stack.isEmpty
  | stack, c :: rest =>
    match closerOf? c, stack with
    | some _, _ => closes (c :: stack) rest
    | none, [] => false
    | none, opening :: outer => closerOf? opening == some c && closes outer rest

/-- An opening bracket is pushed. -/
theorem closes_opening {opening closing : Char} (partners : closerOf? opening = some closing)
    (stack rest : List Char) : closes stack (opening :: rest) = closes (opening :: stack) rest := by
  simp only [closes, partners]

/-- A bracket that closes another does not open one. -/
theorem closerOf?_closing {opening closing : Char} (partners : closerOf? opening = some closing) :
    closerOf? closing = none := by
  unfold closerOf? at partners
  split at partners <;> cases partners <;> rfl

/-- A closing bracket takes its partner off the stack. -/
theorem closes_closing {opening closing : Char} (partners : closerOf? opening = some closing)
    (stack rest : List Char) : closes (opening :: stack) (closing :: rest) = closes stack rest := by
  simp [closes, closerOf?_closing partners, partners]

/-- A nested word leaves the stack as it was. -/
theorem Nested.closes_append {word : List Char} (nested : Nested word) (stack rest : List Char) :
    closes stack (word ++ rest) = closes stack rest := by
  induction nested generalizing stack rest with
  | empty => rfl
  | @pair opening closing inner behind partners _ _ inside after =>
    calc closes stack (opening :: inner ++ closing :: behind ++ rest)
        = closes (opening :: stack) (inner ++ (closing :: (behind ++ rest))) := by
          simp [closes_opening partners]
      _ = closes (opening :: stack) (closing :: (behind ++ rest)) := inside _ _
      _ = closes stack (behind ++ rest) := closes_closing partners _ _
      _ = closes stack rest := after _ _

/-- What a word has to look like while brackets are open: nested words with the partners of the
open brackets between them. -/
def Completes : List Char → List Char → Prop
  | [], word => Nested word
  | opening :: outer, word =>
    ∃ inner closing rest, word = inner ++ closing :: rest ∧ closerOf? opening = some closing ∧
      Nested inner ∧ Completes outer rest

/-- A pair may stand in front of a word that completes open brackets. -/
theorem Completes.pair {opening closing : Char} {stack inner rest : List Char}
    (partners : closerOf? opening = some closing) (inside : Nested inner)
    (later : Completes stack rest) : Completes stack (opening :: inner ++ closing :: rest) := by
  cases stack with
  | nil => exact Nested.pair partners inside later
  | cons outermost outer =>
    obtain ⟨first, last, more, rfl, closed, nested, completes⟩ := later
    refine ⟨opening :: inner ++ closing :: first, last, more, by simp, closed, ?_, completes⟩
    exact Nested.pair partners inside nested

/-- A word that is read without complaint completes the open brackets. The induction is on the word,
for every stack: an opening bracket asks more of the rest, and a closing one less. -/
theorem completes_of_closes {stack word : List Char} (closed : closes stack word = true) :
    Completes stack word := by
  induction word generalizing stack with
  | nil =>
    obtain rfl : stack = [] := List.isEmpty_iff.mp closed
    exact Nested.empty
  | cons c rest ih =>
    cases partner : closerOf? c with
    | some closing =>
      rw [closes_opening partner] at closed
      obtain ⟨inner, last, more, rfl, partners, inside, later⟩ := ih closed
      exact Completes.pair partners inside later
    | none =>
      cases stack with
      | nil => simp [closes, partner] at closed
      | cons opening outer =>
        simp only [closes, partner, Bool.and_eq_true, beq_iff_eq] at closed
        obtain ⟨partners, later⟩ := closed
        exact ⟨[], c, rest, rfl, partners, Nested.empty, ih later⟩

/-- The nested words are those that are read without complaint from an empty stack. -/
theorem nested_iff_closes {word : List Char} : Nested word ↔ closes [] word = true := by
  constructor
  · intro nested
    have kept := nested.closes_append [] []
    rw [List.append_nil] at kept
    exact kept
  · exact completes_of_closes

/-- Whether a word is nested can be told by closing its brackets. -/
instance (word : List Char) : Decidable (Nested word) := decidable_of_iff _ nested_iff_closes.symm

end CfmlTidy.Source
