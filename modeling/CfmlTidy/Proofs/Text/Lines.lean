import Mathlib
import CfmlTidy.Text.Lines

/-!
# Splitting and trimming

Facts about the pieces that a text splits into and about what stays when an end is dropped. The
two functions that drop an end are the library's `List.rdropWhile`, whose lemmas then apply.
-/

namespace CfmlTidy.Text

/-- Dropping an end is the library's function. -/
theorem dropEndWhile_eq (drop : Char → Bool) (text : List Char) :
    dropEndWhile drop text = text.rdropWhile drop := rfl

/-- Dropping the empty lines at the end is the library's function. -/
theorem dropTrailingEmpty_eq (lines : List (List Char)) :
    dropTrailingEmpty lines = lines.rdropWhile List.isEmpty := rfl

/-- Splitting is the library's function. -/
theorem splitBy_eq (cut : Char → Bool) (text : List Char) :
    splitBy cut text = text.splitOnP cut := by
  induction text with
  | nil => rfl
  | cons c rest ih =>
    rw [splitBy, List.splitOnP_cons_eq_if_modifyHead, ih]
    split_ifs
    · rfl
    · cases split : rest.splitOnP cut with
      | nil => exact absurd split (List.splitOnP_ne_nil cut rest)
      | cons piece pieces => rfl

/-- Splitting at a character is splitting a list at an element. -/
theorem splitOn_eq (separator : Char) (text : List Char) :
    splitOn separator text = text.splitOn separator := by
  rw [splitOn, splitBy_eq, List.splitOn_eq_splitOnP]

/-- Joining is the library's function. -/
theorem joinWith_eq (separator : List Char) (pieces : List (List Char)) :
    joinWith separator pieces = separator.intercalate pieces := by
  induction pieces with
  | nil => rfl
  | cons piece rest ih =>
    cases rest with
    | nil => simp [joinWith]
    | cons next more =>
      rw [joinWith, ih, List.intercalate_cons_cons]
      exact List.cons_ne_nil next more

/-- The pieces of a text joined again are the text. -/
theorem joinWith_splitOn (separator : Char) (text : List Char) :
    joinWith [separator] (splitOn separator text) = text := by
  rw [joinWith_eq, splitOn_eq, List.intercalate_splitOn]

/-- There is always a first piece. -/
theorem splitBy_ne_nil (cut : Char → Bool) (text : List Char) : splitBy cut text ≠ [] := by
  cases text with
  | nil => simp [splitBy]
  | cons c rest =>
    rw [splitBy]
    split_ifs
    · simp
    · split <;> simp

/-- A character that is not cut at goes in front of the first piece. -/
theorem splitBy_cons_of_not {cut : Char → Bool} {c : Char} (kept : cut c = false)
    (rest : List Char) :
    ∃ piece pieces, splitBy cut rest = piece :: pieces ∧
      splitBy cut (c :: rest) = (c :: piece) :: pieces := by
  obtain ⟨piece, pieces, split⟩ := List.exists_cons_of_ne_nil (splitBy_ne_nil cut rest)
  refine ⟨piece, pieces, split, ?_⟩
  rw [splitBy, kept, split]
  rfl

/-- The characters of a piece are characters of the text that it is not cut at. -/
theorem of_mem_splitBy {cut : Char → Bool} {text piece : List Char}
    (listed : piece ∈ splitBy cut text) : ∀ c ∈ piece, c ∈ text ∧ cut c = false := by
  induction text generalizing piece with
  | nil =>
    obtain rfl : piece = [] := by simpa [splitBy] using listed
    simp
  | cons first rest ih =>
    by_cases cuts : cut first = true
    · rw [splitBy, if_pos cuts] at listed
      rcases List.mem_cons.mp listed with rfl | later
      · simp
      · intro c inside
        exact ⟨List.mem_cons_of_mem first (ih later c inside).1, (ih later c inside).2⟩
    · have kept := Bool.eq_false_iff.mpr cuts
      obtain ⟨head, tail, split, whole⟩ := splitBy_cons_of_not kept rest
      rw [whole] at listed
      rcases List.mem_cons.mp listed with rfl | later
      · intro c inside
        rcases List.mem_cons.mp inside with rfl | within
        · exact ⟨List.mem_cons_self, kept⟩
        · have found := ih (split ▸ List.mem_cons_self) c within
          exact ⟨List.mem_cons_of_mem first found.1, found.2⟩
      · intro c inside
        have found := ih (split ▸ List.mem_cons_of_mem head later) c inside
        exact ⟨List.mem_cons_of_mem first found.1, found.2⟩

/-- A text without a cut is its only piece. -/
theorem splitBy_of_uncut {cut : Char → Bool} {text : List Char}
    (kept : ∀ c ∈ text, cut c = false) : splitBy cut text = [text] := by
  induction text with
  | nil => rfl
  | cons c rest ih =>
    rw [splitBy, kept c List.mem_cons_self, ih fun other inside =>
      kept other (List.mem_cons_of_mem c inside)]
    rfl

/-- The pieces of two texts around a character that is cut at are the pieces of both. -/
theorem splitBy_append {cut : Char → Bool} {c : Char} (cuts : cut c = true)
    (front back : List Char) :
    splitBy cut (front ++ c :: back) = splitBy cut front ++ splitBy cut back := by
  induction front with
  | nil =>
    have nothing : splitBy cut [] = [[]] := rfl
    rw [List.nil_append, nothing, splitBy, if_pos cuts, List.singleton_append]
  | cons first rest ih =>
    by_cases early : cut first = true
    · rw [List.cons_append, splitBy, if_pos early, splitBy, if_pos early, ih, List.cons_append]
    · have kept := Bool.eq_false_iff.mpr early
      obtain ⟨head, tail, split, whole⟩ := splitBy_cons_of_not kept rest
      obtain ⟨head', tail', split', whole'⟩ := splitBy_cons_of_not kept (rest ++ c :: back)
      rw [ih, split, List.cons_append, List.cons.injEq] at split'
      rw [List.cons_append, whole', whole, ← split'.1, ← split'.2, List.cons_append]

/-- The pieces of two texts around a separator are the pieces of both. -/
theorem splitOn_append (separator : Char) (front back : List Char) :
    splitOn separator (front ++ separator :: back) =
      splitOn separator front ++ splitOn separator back := by
  apply splitBy_append
  exact beq_self_eq_true separator

/-- A line up to a character that is cut at is the first piece. -/
theorem splitBy_append_cons {cut : Char → Bool} {line : List Char} {c : Char}
    (kept : ∀ other ∈ line, cut other = false) (cuts : cut c = true) (rest : List Char) :
    splitBy cut (line ++ c :: rest) = line :: splitBy cut rest := by
  rw [splitBy_append cuts, splitBy_of_uncut kept, List.singleton_append]

/-- A character that is cut at leaves an empty piece behind it at the end. -/
theorem splitBy_concat {cut : Char → Bool} {c : Char} (cuts : cut c = true) (text : List Char) :
    splitBy cut (text ++ [c]) = splitBy cut text ++ [[]] := splitBy_append cuts text []

/-- The first piece starts as the text does, as far as characters are not cut at. -/
theorem head?_splitBy_takeWhile {cut stays : Char → Bool}
    (apart : ∀ c, cut c = true → stays c = false) (text : List Char) :
    (splitBy cut text).head?.map (·.takeWhile stays) = some (text.takeWhile stays) := by
  induction text with
  | nil => rfl
  | cons c rest ih =>
    by_cases cuts : cut c = true
    · rw [splitBy, if_pos cuts, List.takeWhile_cons, apart c cuts]
      rfl
    · obtain ⟨head, tail, split, whole⟩ := splitBy_cons_of_not (Bool.eq_false_iff.mpr cuts) rest
      rw [split, List.head?_cons, Option.map_some, Option.some.injEq] at ih
      rw [whole, List.head?_cons, Option.map_some, List.takeWhile_cons, List.takeWhile_cons, ih]

/-- The first piece is what stands before the first cut, and every other piece is what stands after
a cut and before the next. -/
theorem splitBy_eq_cons (cut : Char → Bool) (text : List Char) :
    ∃ others, splitBy cut text = text.takeWhile (!cut ·) :: others ∧
      ∀ piece, piece ∈ others ↔
        ∃ front c back, text = front ++ c :: back ∧ cut c = true ∧
          piece = back.takeWhile (!cut ·) := by
  induction text with
  | nil => exact ⟨[], rfl, by simp⟩
  | cons first rest ih =>
    obtain ⟨others, split, later⟩ := ih
    by_cases cuts : cut first = true
    · refine ⟨splitBy cut rest, ?_, ?_⟩
      · rw [splitBy, if_pos cuts, List.takeWhile_cons, cuts]
        rfl
      · intro piece
        rw [split, List.mem_cons, later]
        constructor
        · rintro (rfl | ⟨front, c, back, rfl, cutAt, rfl⟩)
          · exact ⟨[], first, rest, rfl, cuts, rfl⟩
          · exact ⟨first :: front, c, back, rfl, cutAt, rfl⟩
        · rintro ⟨front, c, back, whole, cutAt, rfl⟩
          rcases List.cons_eq_append_iff.mp whole with ⟨-, same⟩ | ⟨shorter, -, same⟩
          · obtain ⟨-, rfl⟩ := List.cons.inj same
            exact Or.inl rfl
          · exact Or.inr ⟨shorter, c, back, same, cutAt, rfl⟩
    · refine ⟨others, ?_, ?_⟩
      · rw [splitBy, if_neg cuts, split, List.takeWhile_cons, Bool.eq_false_iff.mpr cuts]
        rfl
      · intro piece
        rw [later]
        constructor
        · rintro ⟨front, c, back, rfl, cutAt, rfl⟩
          exact ⟨first :: front, c, back, rfl, cutAt, rfl⟩
        · rintro ⟨front, c, back, whole, cutAt, rfl⟩
          rcases List.cons_eq_append_iff.mp whole with ⟨-, same⟩ | ⟨shorter, -, same⟩
          · obtain ⟨rfl, -⟩ := List.cons.inj same
            exact absurd cutAt cuts
          · exact ⟨shorter, c, back, same, cutAt, rfl⟩

/-- Strings joined with a separator that they do not contain are the pieces. -/
theorem splitOn_joinStrings {separator : Char} {first : String} {rest : List String}
    (clean : ∀ text ∈ first :: rest, ∀ c ∈ text.toList, (c == separator) = false) :
    splitOn separator (joinStrings (String.singleton separator) (first :: rest)).toList =
      (first :: rest).map String.toList := by
  have kept := clean first List.mem_cons_self
  induction rest generalizing first with
  | nil => exact splitBy_of_uncut kept
  | cons second rest ih =>
    have others : ∀ text ∈ second :: rest, ∀ c ∈ text.toList, (c == separator) = false :=
      fun text listed => clean text (List.mem_cons_of_mem first listed)
    have join : (joinStrings (String.singleton separator) (first :: second :: rest)).toList =
        first.toList ++ separator ::
          (joinStrings (String.singleton separator) (second :: rest)).toList := by
      simp [joinStrings]
    rw [join, splitOn, splitBy_append_cons kept (beq_self_eq_true separator), List.map_cons]
    congr 1
    exact ih others (others second List.mem_cons_self)

/-- Text that starts with a character that does not stay adds nothing to the start. -/
theorem takeWhile_append_of_head {stays : Char → Bool} {tail : List Char}
    (stops : ∀ c ∈ tail.head?, stays c = false) (front : List Char) :
    (front ++ tail).takeWhile stays = front.takeWhile stays := by
  have nothing : tail.takeWhile stays = [] := by
    cases tail with
    | nil => rfl
    | cons c rest => rw [List.takeWhile_cons, stops c rfl]; rfl
  induction front with
  | nil => exact nothing
  | cons c rest ih => rw [List.cons_append, List.takeWhile_cons, List.takeWhile_cons, ih]

/-- Nothing is left to trim in a text that was trimmed. What was trimmed at the end starts as the
text before it, which starts with no blank. -/
theorem trim_trim (text : List Char) : trim (trim text) = trim text := by
  have whole : trimStart (trim text) = trim text := by
    rw [trimStart, List.dropWhile_eq_self_iff]
    intro present blank
    have starts : trim text <+: trimStart text := List.rdropWhile_prefix isBlank _
    have longer : 0 < (trimStart text).length := present.trans_le starts.length_le
    rw [starts.getElem] at blank
    exact List.dropWhile_get_zero_not isBlank text longer blank
  have ended : trimEnd (trim text) = trim text := List.rdropWhile_idempotent isBlank _
  rw [trim, whole, ended]

/-- Around what trimming leaves of a text stand the blanks that it takes away, and what it leaves
does not start with a blank. -/
theorem exists_trim (text : List Char) :
    ∃ lead trail, text = lead ++ (trim text ++ trail) ∧ (∀ c ∈ lead, isBlank c = true) ∧
      (∀ c ∈ trail, isBlank c = true) ∧ ∀ c ∈ (trim text).head?, isBlank c = false := by
  have back : trimStart text = trim text ++ (trimStart text).rtakeWhile isBlank :=
    List.rdropWhile_append_rtakeWhile.symm
  refine ⟨text.takeWhile isBlank, (trimStart text).rtakeWhile isBlank, ?_,
    fun _ => List.mem_takeWhile_imp, fun _ => List.mem_rtakeWhile_imp, ?_⟩
  · rw [← back]
    exact List.takeWhile_append_dropWhile.symm
  · intro c starts
    obtain ⟨rest, left⟩ := List.head?_eq_some_iff.mp starts
    rw [left, List.cons_append] at back
    have first := List.head?_dropWhile_not isBlank text
    rw [← trimStart, back] at first
    exact first

/-- Nothing is left of a text by trimming exactly when it has only blanks. -/
theorem trim_eq_nil_iff (text : List Char) : trim text = [] ↔ allBlank text = true := by
  obtain ⟨lead, trail, whole, before, behind, starts⟩ := exists_trim text
  constructor
  · intro nothing
    rw [whole, nothing, List.nil_append, allBlank, List.all_append, Bool.and_eq_true]
    exact ⟨List.all_eq_true.mpr before, List.all_eq_true.mpr behind⟩
  · intro blank
    cases left : trim text with
    | nil => rfl
    | cons c rest =>
      have inside : c ∈ text := by rw [whole, left]; simp
      have visible := starts c (by rw [left]; rfl)
      rw [List.all_eq_true.mp blank c inside] at visible
      contradiction

end CfmlTidy.Text
