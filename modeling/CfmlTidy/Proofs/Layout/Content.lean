import Mathlib
import CfmlTidy.Proofs.Layout.Settled

/-!
# What formatting keeps

Formatting adds no characters but spaces and newlines, and it keeps what a text starts with up to
the first space, tab or line end. The first says that a formatted text can be written wherever
the text itself can, the second that formatting never brings a byte-order mark about.
-/

namespace CfmlTidy.Layout

open CfmlTidy.Text

/-- A character that formatting neither adds, replaces nor drops. -/
def isSolid (c : Char) : Bool :=
  c != ' ' && c != '\t' && c != '\r' && c != '\n'

/-- Unified line ends bring no characters but newlines. -/
theorem of_mem_unifyEnds {text : List Char} {c : Char} (inside : c ∈ unifyEnds text) :
    c ∈ text ∨ c = '\n' := by
  fun_induction unifyEnds text with
  | case1 => exact Or.inl inside
  | case2 rest ih =>
    rcases List.mem_cons.mp inside with rfl | later
    · exact Or.inr rfl
    · rcases ih later with listed | newline
      · exact Or.inl (List.mem_cons_of_mem _ (List.mem_cons_of_mem _ listed))
      · exact Or.inr newline
  | case3 first rest _ ih =>
    rcases List.mem_cons.mp inside with rfl | later
    · split_ifs
      · exact Or.inr rfl
      · exact Or.inl List.mem_cons_self
    · rcases ih later with listed | newline
      · exact Or.inl (List.mem_cons_of_mem _ listed)
      · exact Or.inr newline

/-- Formatting adds no characters but spaces and newlines. -/
theorem of_mem_format {indent : Nat} {text : List Char} {c : Char}
    (inside : c ∈ format indent text) : c ∈ text ∨ c = ' ' ∨ c = '\n' := by
  rw [format] at inside
  split_ifs at inside
  · contradiction
  · obtain ⟨line, listed, within⟩ := List.mem_flatMap.mp inside
    rcases List.mem_append.mp within with early | late
    · rw [dropTrailingEmpty_eq] at listed
      have collapsed := (List.rdropWhile_prefix _ _).subset listed
      obtain ⟨piece, split, rfl⟩ := List.mem_map.mp ((collapse_sublist _).subset collapsed)
      rcases of_mem_cleanLine early with ⟨kept, _⟩ | space
      · have unified := of_mem_unifyEnds (of_mem_splitBy split c kept).1
        tauto
      · exact Or.inr (Or.inl space)
    · exact Or.inr (Or.inr (List.mem_singleton.mp late))

/-- Unified line ends keep the start of a text. -/
theorem takeWhile_unifyEnds (text : List Char) :
    (unifyEnds text).takeWhile isSolid = text.takeWhile isSolid := by
  fun_induction unifyEnds text with
  | case1 => rfl
  | case2 rest ih => rfl
  | case3 c rest _ ih =>
    by_cases carriage : c = '\r'
    · rw [if_pos carriage, carriage]
      rfl
    · rw [if_neg carriage, List.takeWhile_cons, List.takeWhile_cons, ih]

/-- Expanded tabs keep the start of a line. -/
theorem takeWhile_expandTabs {width : Nat} (positive : 0 < width) (line : List Char) :
    (expandTabs width line).takeWhile isSolid = line.takeWhile isSolid := by
  induction line with
  | nil => rfl
  | cons c rest ih =>
    unfold expandTabs at ih ⊢
    rw [List.flatMap_cons]
    by_cases tab : c = '\t'
    · obtain ⟨more, rfl⟩ := Nat.exists_eq_add_of_lt positive
      rw [if_pos tab, tab, Nat.zero_add, List.replicate_succ]
      rfl
    · rw [if_neg tab, List.singleton_append, List.takeWhile_cons, List.takeWhile_cons, ih]

/-- A cleaned line starts as the line does: what is dropped are spaces. -/
theorem takeWhile_cleanLine (indent : Nat) (line : List Char) :
    (cleanLine indent line).takeWhile isSolid = line.takeWhile isSolid := by
  have stops : ∀ c ∈ ((expandTabs (max indent 1) line).rtakeWhile (· == ' ')).head?,
      isSolid c = false := by
    intro c first
    have space := List.mem_rtakeWhile_imp (List.mem_of_mem_head? first)
    rw [beq_iff_eq.mp space]
    rfl
  calc (cleanLine indent line).takeWhile isSolid
      = ((expandTabs (max indent 1) line).rdropWhile (· == ' ') ++
          (expandTabs (max indent 1) line).rtakeWhile (· == ' ')).takeWhile isSolid := by
        rw [takeWhile_append_of_head stops, cleanLine, dropEndWhile_eq]
    _ = (expandTabs (max indent 1) line).takeWhile isSolid := by
        rw [List.rdropWhile_append_rtakeWhile]
    _ = line.takeWhile isSolid := takeWhile_expandTabs (by omega) line

/-- The first cleaned line starts as the text does. -/
theorem head?_cleanLines (indent : Nat) (text : List Char) :
    (cleanLines indent text).head?.map (·.takeWhile isSolid) = some (text.takeWhile isSolid) := by
  have apart : ∀ c, (c == '\n') = true → isSolid c = false := by
    intro c newline
    rw [beq_iff_eq.mp newline]
    rfl
  have first := head?_splitBy_takeWhile apart (unifyEnds text)
  rw [takeWhile_unifyEnds] at first
  rw [cleanLines, List.head?_map, Option.map_map, ← first]
  exact congrArg (fun start => Option.map start _) (funext (takeWhile_cleanLine indent))

/-- A formatted text starts as the text does, up to the first character that formatting may
change, unless there is nothing in the text but blanks. -/
theorem takeWhile_format (indent : Nat) (text : List Char) :
    format indent text = [] ∨
      (format indent text).takeWhile isSolid = text.takeWhile isSolid := by
  rw [format]
  by_cases blank : (dropTrailingEmpty (collapse (cleanLines indent text))).all allBlank = true
  · exact Or.inl (if_pos blank)
  · right
    simp only [if_neg blank]
    cases lines : dropTrailingEmpty (collapse (cleanLines indent text)) with
    | nil => rw [lines] at blank; exact absurd rfl blank
    | cons line rest =>
      have start : (cleanLines indent text).head? = some line := by
        obtain ⟨dropped, whole⟩ := List.rdropWhile_prefix List.isEmpty
          (collapse (cleanLines indent text))
        rw [← head?_collapse, ← whole, ← dropTrailingEmpty_eq, lines]
        rfl
      have first := head?_cleanLines indent text
      rw [start, Option.map_some, Option.some.injEq] at first
      rw [unlines, List.flatMap_cons, List.append_assoc, List.singleton_append,
        takeWhile_append_of_head (by simp [isSolid]), first]

end CfmlTidy.Layout
