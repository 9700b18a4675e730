import Mathlib
import CfmlTidy.Violation

/-!
# Snippets

A snippet of a line of a text is there, shows the lines around it with neighbouring numbers, and
marks one of them, which is the line itself. `printed` spells out how a row looks.
-/

namespace CfmlTidy.Snippet

variable {lines : List (List Char)} {line : Nat}

/-- Numbered lines are lines with their numbers. -/
theorem of_mem_numbered {first : Nat} {entry : Nat × List Char}
    (listed : entry ∈ numbered first lines) :
    first ≤ entry.1 ∧ lines[entry.1 - first]? = some entry.2 := by
  induction lines generalizing first with
  | nil => contradiction
  | cons head rest ih =>
    rw [numbered] at listed
    rcases List.mem_cons.mp listed with rfl | later
    · simp
    · obtain ⟨above, found⟩ := ih later
      have index : entry.1 - first = entry.1 - (first + 1) + 1 := by omega
      rw [index, List.getElem?_cons_succ]
      exact ⟨by omega, found⟩

/-- Lines are numbered one after the other. -/
theorem map_fst_numbered (first : Nat) (lines : List (List Char)) :
    (numbered first lines).map Prod.fst = List.range' first lines.length := by
  induction lines generalizing first with
  | nil => rfl
  | cons head rest ih =>
    rw [numbered, List.map_cons, ih, List.length_cons, List.range'_succ]

/-- The numbers from one to a count that lie between two of them. -/
theorem filter_range' {count low high : Nat} (start : 1 ≤ low) (order : low ≤ high)
    (stop : high ≤ count) :
    (List.range' 1 count).filter (fun number => low ≤ number && number ≤ high) =
      List.range' low (high + 1 - low) := by
  have split : List.range' 1 count =
      List.range' 1 (low - 1) ++
        (List.range' low (high + 1 - low) ++ List.range' (high + 1) (count - high)) := by
    have upper := @List.range'_append_1 low (high + 1 - low) (count - high)
    have lower := @List.range'_append_1 1 (low - 1) (high + 1 - low + (count - high))
    have next : low + (high + 1 - low) = high + 1 := by omega
    have first : 1 + (low - 1) = low := by omega
    have length : low - 1 + (high + 1 - low + (count - high)) = count := by omega
    rw [next] at upper
    rw [first, length] at lower
    rw [upper, lower]
  have outside {first length : Nat} (apart : first + length ≤ low ∨ high < first) :
      (List.range' first length).filter (fun number => low ≤ number && number ≤ high) = [] := by
    rw [List.filter_eq_nil_iff]
    intro number listed
    have bounds := List.mem_range'_1.mp listed
    simp only [Bool.and_eq_true, decide_eq_true_eq]
    omega
  have between : (List.range' low (high + 1 - low)).filter
      (fun number => low ≤ number && number ≤ high) = List.range' low (high + 1 - low) := by
    rw [List.filter_eq_self]
    intro number listed
    have bounds := List.mem_range'_1.mp listed
    simp only [Bool.and_eq_true, decide_eq_true_eq]
    omega
  rw [split, List.filter_append, List.filter_append, outside (by omega), between,
    outside (by omega), List.nil_append, List.append_nil]

/-- A row of a snippet: an arrowhead in front of the marked line and a blank in front of any other,
a blank, the number of the line to the right of four columns, a colon, a blank, the line, and a
newline. -/
def printed (marked number : Nat) (line : List Char) : List Char :=
  (if number = marked then '\u27A4' else ' ') ::
    ' ' :: (toString number).toList.leftpad 4 ' ' ++ ':' :: ' ' :: line ++ ['\n']

/-- Rows come out as they are to be printed. -/
theorem row_eq_printed (marked number : Nat) (line : List Char) :
    row marked number line = printed marked number line := by
  have digits : (toString number).toList = Nat.toDigits 10 number := by
    rw [Nat.toString_eq_repr, Nat.toList_repr]
  have columns : rowNumber number = (toString number).toList.leftpad 4 ' ' := by
    rw [digits]
    rfl
  rw [row, printed, columns]
  split_ifs <;> simp only [List.append_assoc, List.cons_append, List.nil_append]

/-- A snippet that shows the lines around a line in order, each in a row with its number, and marks
the row of that line alone. -/
def Shows (lines : List (List Char)) (line : Nat) (snippet : String) : Prop :=
  ∃ rows : List (Nat × List Char),
    snippet = String.ofList (rows.flatMap fun entry => printed line entry.1 entry.2) ∧
      rows.map Prod.fst = List.range' (max 1 (line - 3))
        (min lines.length (line + 3) + 1 - max 1 (line - 3)) ∧
      (∀ entry ∈ rows, lines[entry.1 - 1]? = some entry.2) ∧
      (rows.filter fun entry => (printed line entry.1 entry.2).head? == some '\u27A4').map
        Prod.fst = [line]

/-- The lines around a line have neighbouring numbers. -/
theorem map_fst_window (first : 1 ≤ line) (last : line ≤ lines.length) :
    (window lines line).map Prod.fst = List.range' (max 1 (line - 3))
      (min lines.length (line + 3) + 1 - max 1 (line - 3)) := by
  have low : max (line - context) 1 = max 1 (line - 3) := by rw [context, max_comm]
  have high : min (line + context) lines.length = min lines.length (line + 3) := by
    rw [context, min_comm]
  have numbers : (window lines line).map Prod.fst =
      ((numbered 1 lines).map Prod.fst).filter
        (fun number => max 1 (line - 3) ≤ number && number ≤ min lines.length (line + 3)) := by
    rw [window, List.filter_map, low, high]
    rfl
  rw [numbers, map_fst_numbered, filter_range' (by omega) (by omega) (by omega)]

/-- A row starts with a marker exactly when it is that of the line. -/
theorem marked_iff (line number : Nat) (text : List Char) :
    ((printed line number text).head? == some '\u27A4') = (number == line) := by
  by_cases same : number = line
  · simp [printed, same]
  · simp [printed, same]

/-- A line of a text has a snippet, and it shows the lines around it. -/
theorem shows_around? (first : 1 ≤ line) (last : line ≤ lines.length) :
    ∃ snippet, around? lines line = some snippet ∧ Shows lines line snippet := by
  have inside : ¬ (line = 0 ∨ lines.length < line) := by omega
  refine ⟨_, if_neg inside, window lines line, ?_, map_fst_window first last, ?_, ?_⟩
  · simp only [row_eq_printed]
  · intro entry listed
    exact (of_mem_numbered (List.mem_filter.mp listed).1).2
  · have chosen : (fun entry : Nat × List Char =>
        (printed line entry.1 entry.2).head? == some '\u27A4') = (· == line) ∘ Prod.fst := by
      funext entry
      exact marked_iff line entry.1 entry.2
    have member : line ∈ List.range' (max 1 (line - 3))
        (min lines.length (line + 3) + 1 - max 1 (line - 3)) := by
      rw [List.mem_range'_1]
      omega
    rw [chosen, ← List.filter_map, map_fst_window first last, List.filter_beq,
      List.count_eq_one_of_mem (List.nodup_range' 1) member]
    rfl

end CfmlTidy.Snippet
