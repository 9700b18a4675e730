import Mathlib
import CfmlTidy.Proofs.Layout.Settled

/-!
# Texts that formatting leaves alone

Which texts formatting leaves alone can be said without formatting: the empty text, and the texts
with something to read whose lines have no tabs, carriage returns and spaces at the end, stand with
at most one empty line between them, and are followed by one newline. Splitting such a text at its
newlines gives settled lines, and joining settled lines gives such a text.
-/

namespace CfmlTidy.Layout

open CfmlTidy.Text

/-- A text in layout, told by its characters and by its lines. What stands after the last newline
counts as a line. -/
structure InLayout (text : List Char) : Prop where
  /-- Some character is not blank. -/
  readable : ∃ c ∈ text, isBlank c = false
  /-- No tab. -/
  tab : '\t' ∉ text
  /-- No carriage return. -/
  carriage : '\r' ∉ text
  /-- A newline ends the text, and the line before it is not empty. -/
  ended : ∃ lines line, splitOn '\n' text = lines ++ [line, []] ∧ line ≠ []
  /-- No line ends in a space. -/
  ending : ∀ line ∈ splitOn '\n' text, line.getLast? ≠ some ' '
  /-- No two neighbouring lines are both empty. -/
  sparse : (splitOn '\n' text).IsChain fun line next => ¬ (line = [] ∧ next = [])

variable {lines : List (List Char)} {text : List Char}

/-- The lines of a text followed by newlines are the text and a newline. -/
theorem unlines_splitOn (text : List Char) : unlines (splitOn '\n' text) = text ++ ['\n'] := by
  induction text with
  | nil => rfl
  | cons c rest ih =>
    by_cases newline : c = '\n'
    · have cuts : (c == '\n') = true := beq_iff_eq.mpr newline
      rw [splitOn, splitBy, if_pos cuts, unlines, List.flatMap_cons, newline]
      exact congrArg ('\n' :: ·) ih
    · have kept : (c == '\n') = false := beq_eq_false_iff_ne.mpr newline
      obtain ⟨piece, pieces, split, whole⟩ := @splitBy_cons_of_not (· == '\n') c kept rest
      rw [splitOn, split] at ih
      rw [splitOn, whole]
      exact congrArg (c :: ·) ih

/-- Neighbours of which one is not empty are not both empty. -/
theorem sparse_iff : Sparse lines ↔ lines.IsChain fun line next => ¬ (line = [] ∧ next = []) := by
  simp only [Sparse, not_and_or, ne_eq]

/-- Lines of which one has more than blanks have a character that is not blank. -/
theorem all_allBlank_eq_false_iff :
    lines.all allBlank = false ↔ ∃ line ∈ lines, ∃ c ∈ line, isBlank c = false := by
  simp [allBlank]

/-- Settled lines make a text in layout. -/
theorem Settled.inLayout (settled : Settled lines) : InLayout (unlines lines) where
  readable := by
    obtain ⟨line, listed, c, inside, visible⟩ := all_allBlank_eq_false_iff.mp settled.content
    exact ⟨c, List.mem_flatMap.mpr ⟨line, listed, List.mem_append_left _ inside⟩, visible⟩
  tab := by
    intro inside
    obtain ⟨line, listed, within⟩ := List.mem_flatMap.mp inside
    rcases List.mem_append.mp within with early | late
    · exact (settled.clean line listed).tab early
    · simp at late
  carriage := return_not_mem_unlines settled.clean
  ended := by
    have filled : lines ≠ [] := by
      rintro rfl
      exact Bool.noConfusion settled.content
    refine ⟨lines.dropLast, lines.getLast filled, ?_, settled.ended filled⟩
    calc splitOn '\n' (unlines lines)
        = (lines.dropLast ++ [lines.getLast filled]) ++ [[]] := by
          rw [List.dropLast_append_getLast filled, splitOn_unlines settled.clean]
      _ = lines.dropLast ++ [lines.getLast filled, []] := by
          rw [List.append_assoc, List.singleton_append]
  ending := by
    intro line listed last
    rw [splitOn_unlines settled.clean, List.mem_append, List.mem_singleton] at listed
    rcases listed with early | rfl
    · obtain ⟨filled, same⟩ := List.mem_getLast?_eq_getLast last
      exact (settled.clean line early).ending filled same.symm
    · contradiction
  sparse := by
    rw [splitOn_unlines settled.clean]
    exact sparse_iff.mp (sparse_append_empty settled)

/-- A text in layout is made of settled lines. -/
theorem InLayout.exists_settled (laid : InLayout text) :
    ∃ lines, Settled lines ∧ unlines lines = text := by
  obtain ⟨front, last, split, filled⟩ := laid.ended
  have pieces : splitOn '\n' text = (front ++ [last]) ++ [[]] := by
    rw [split, List.append_assoc, List.singleton_append]
  have whole : unlines (front ++ [last]) = text := by
    have joined := unlines_splitOn text
    rw [pieces, unlines, List.flatMap_append] at joined
    exact List.append_cancel_right joined
  refine ⟨front ++ [last], ⟨?_, ?_, ?_, ?_⟩, whole⟩
  · intro line listed
    have piece : line ∈ splitOn '\n' text := pieces ▸ List.mem_append_left _ listed
    have kept := of_mem_splitBy piece
    refine ⟨fun inside => ?_, fun inside => ?_, fun inside => ?_, fun some space => ?_⟩
    · exact absurd (kept _ inside).2 (by decide)
    · exact laid.carriage (kept _ inside).1
    · exact laid.tab (kept _ inside).1
    · refine laid.ending line piece ?_
      rw [List.getLast?_eq_some_getLast some, space]
  · have apart := sparse_iff.mpr laid.sparse
    rw [pieces] at apart
    exact apart.prefix (List.prefix_append _ _)
  · intro _
    rw [List.getLast_append_singleton]
    exact filled
  · obtain ⟨c, inside, visible⟩ := laid.readable
    rw [← whole] at inside
    obtain ⟨line, listed, within⟩ := List.mem_flatMap.mp inside
    rcases List.mem_append.mp within with early | late
    · exact all_allBlank_eq_false_iff.mpr ⟨line, listed, c, early, visible⟩
    · rw [List.mem_singleton.mp late] at visible
      contradiction

/-- Formatting twice is formatting once, and formatting leaves a text alone exactly when the text
is empty or in layout. -/
theorem format_stable_iff (indent : Nat) (text : List Char) :
    format indent (format indent text) = format indent text ∧
      (format indent text = text ↔ text = [] ∨ InLayout text) := by
  refine ⟨format_format indent text, ?_, ?_⟩
  · intro stable
    rcases format_settled indent text with empty | ⟨lines, settled, whole⟩
    · exact Or.inl (stable.symm.trans empty)
    · right
      rw [← stable, whole]
      exact settled.inLayout
  · rintro (rfl | laid)
    · exact format_nil indent
    · obtain ⟨lines, settled, rfl⟩ := laid.exists_settled
      exact format_unlines indent settled

end CfmlTidy.Layout
