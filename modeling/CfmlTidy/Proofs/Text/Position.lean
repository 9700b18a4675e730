import Mathlib
import CfmlTidy.Proofs.Text.Lines

/-!
# Offsets, lines and the last line of a text

A byte offset between two characters of a text is told by what the text reads from there on. The
line of such an offset is one more than the newlines before it, and when a character stands there
that no line end consists of, that line is among the lines of the text: only empty lines at the end
are left out of them.
-/

namespace CfmlTidy.Text

/-- Bytes of joined texts add up. -/
theorem byteLength_append (front back : List Char) :
    byteLength (front ++ back) = byteLength front + byteLength back := by
  induction front with
  | nil => simp [byteLength]
  | cons c rest ih => simp only [List.cons_append, byteLength, ih, Nat.add_assoc]

/-- A text that starts with a character has bytes. -/
theorem byteLength_cons_pos (c : Char) (rest : List Char) : 0 < byteLength (c :: rest) :=
  Nat.add_pos_left c.utf8Size_pos (byteLength rest)

/-- A stretch that starts with a character ends behind its start. -/
theorem lt_of_byteLength_cons {c : Char} {rest : List Char} {start stop : Nat}
    (ends : start + byteLength (c :: rest) = stop) : start < stop :=
  ends ▸ Nat.lt_add_of_pos_right (byteLength_cons_pos c rest)

/-- From a byte offset on, a text reads `rest`. -/
def ReadsAt (text : List Char) (offset : Nat) (rest : List Char) : Prop :=
  ∃ front, text = front ++ rest ∧ byteLength front = offset

namespace ReadsAt

variable {text front rest : List Char} {offset : Nat}

/-- A text is read from its start. -/
theorem start (text : List Char) : ReadsAt text 0 text := ⟨[], rfl, rfl⟩

/-- What is read after some characters. -/
theorem skip (reads : ReadsAt text offset (front ++ rest)) :
    ReadsAt text (offset + byteLength front) rest := by
  obtain ⟨before, rfl, rfl⟩ := reads
  exact ⟨before ++ front, by rw [List.append_assoc], byteLength_append before front⟩

/-- What is read after one character. -/
theorem next {c : Char} (reads : ReadsAt text offset (c :: rest)) :
    ReadsAt text (offset + c.utf8Size) rest := by
  have later : ReadsAt text (offset + byteLength [c]) rest := skip reads
  simpa [byteLength] using later

/-- A character read from joined texts stands in the first or is read from the second. -/
theorem append_cases {c : Char} (reads : ReadsAt (front ++ text) offset (c :: rest)) :
    (∃ later, ReadsAt front offset (c :: later)) ∨
      ∃ inner, offset = byteLength front + inner ∧ ReadsAt text inner (c :: rest) := by
  obtain ⟨before, split, rfl⟩ := reads
  rcases List.append_eq_append_iff.mp split with ⟨middle, rfl, whole⟩ | ⟨middle, whole, tail⟩
  · exact Or.inr ⟨byteLength middle, byteLength_append front middle, middle, whole, rfl⟩
  · cases middle with
    | nil =>
      rw [List.append_nil] at whole
      subst whole
      exact Or.inr ⟨0, by simp, [], by simpa using tail.symm, rfl⟩
    | cons first others =>
      obtain ⟨rfl, -⟩ := List.cons.inj tail
      exact Or.inl ⟨others, before, whole, rfl⟩

/-- Behind what is passed over at the start of a stretch, a character of the stretch is read, as
long as one of them is not passed over. -/
theorem afterLead {stretch : List Char} (passed : Char → Bool) {other : Char}
    (reads : ReadsAt text offset (stretch ++ rest)) (inside : other ∈ stretch)
    (stays : passed other = false) :
    ∃ c later, passed c = false ∧
      ReadsAt text (offset + byteLength (stretch.takeWhile passed)) (c :: later) := by
  cases left : stretch.dropWhile passed with
  | nil =>
    have all := List.dropWhile_eq_nil_iff.mp left other inside
    rw [stays] at all
    contradiction
  | cons c more =>
    have stops : passed c = false := by
      have head := List.head_dropWhile_not passed (l := stretch) (by simp [left])
      simpa [left] using head
    refine ⟨c, more ++ rest, stops, ?_⟩
    rw [← List.takeWhile_append_dropWhile (p := passed) (l := stretch), left,
      List.append_assoc] at reads
    exact reads.skip

/-- What is read from a text is read after any text in front of it. -/
theorem prepend (reads : ReadsAt text offset rest) (front : List Char) :
    ReadsAt (front ++ text) (byteLength front + offset) rest := by
  obtain ⟨before, rfl, rfl⟩ := reads
  exact ⟨front ++ before, by rw [List.append_assoc], byteLength_append front before⟩

end ReadsAt

/-- An offset before the end lies at a character or inside it. -/
theorem exists_front_of_lt {text : List Char} {offset : Nat} (inside : offset < byteLength text) :
    ∃ front c rest, text = front ++ c :: rest ∧ byteLength front ≤ offset ∧
      offset < byteLength front + c.utf8Size := by
  induction text generalizing offset with
  | nil => contradiction
  | cons first others ih =>
    by_cases here : offset < first.utf8Size
    · exact ⟨[], first, others, rfl, Nat.zero_le offset, by rw [byteLength]; omega⟩
    · rw [byteLength] at inside
      obtain ⟨front, c, rest, rfl, reaches, stays⟩ := @ih (offset - first.utf8Size) (by omega)
      exact ⟨first :: front, c, rest, rfl, by rw [byteLength]; omega, by rw [byteLength]; omega⟩

section Slices

/-- Dropping the bytes of a front leaves the rest. -/
theorem dropBytes_append (front rest : List Char) :
    dropBytes (byteLength front) (front ++ rest) = some rest := by
  induction front with
  | nil => cases rest <;> rfl
  | cons c front ih =>
    obtain ⟨before, size⟩ := Nat.exists_eq_add_one.mpr (byteLength_cons_pos c front)
    rw [size, List.cons_append, dropBytes, ← size, byteLength, if_pos (Nat.le_add_right _ _),
      Nat.add_sub_cancel_left, ih]

/-- Taking the bytes of a front takes the front. -/
theorem takeBytes_append (front rest : List Char) :
    takeBytes (byteLength front) (front ++ rest) = some front := by
  induction front with
  | nil => cases rest <;> rfl
  | cons c front ih =>
    obtain ⟨before, size⟩ := Nat.exists_eq_add_one.mpr (byteLength_cons_pos c front)
    rw [size, List.cons_append, takeBytes, ← size, byteLength, if_pos (Nat.le_add_right _ _),
      Nat.add_sub_cancel_left, ih]
    rfl

/-- Bytes that end inside a character are no text. -/
theorem takeBytes_inside {front : List Char} {c : Char} {count : Nat}
    (enters : byteLength front < count) (stays : count < byteLength front + c.utf8Size)
    (rest : List Char) : takeBytes count (front ++ c :: rest) = none := by
  induction front generalizing count with
  | nil =>
    rw [byteLength] at enters stays
    obtain ⟨before, rfl⟩ := Nat.exists_eq_succ_of_ne_zero enters.ne'
    rw [List.nil_append, takeBytes, if_neg (by omega)]
  | cons first others ih =>
    rw [byteLength] at enters stays
    obtain ⟨before, rfl⟩ := Nat.exists_eq_succ_of_ne_zero (Nat.ne_zero_of_lt enters)
    rw [List.cons_append, takeBytes, if_pos (by omega), ih (by omega) (by omega)]
    rfl

/-- Between two places of a text stands what is read from the first and not from the second. -/
theorem ReadsAt.between {text front back : List Char} {first last : Nat}
    (reads : ReadsAt text first front) (reads' : ReadsAt text last back) (order : first ≤ last) :
    ∃ inside, front = inside ++ back ∧ last = first + byteLength inside := by
  obtain ⟨before, whole, rfl⟩ := reads
  obtain ⟨before', whole', rfl⟩ := reads'
  rcases List.append_eq_append_iff.mp (whole.symm.trans whole') with
    ⟨inside, rfl, split⟩ | ⟨inside, rfl, rfl⟩
  · exact ⟨inside, split, byteLength_append before inside⟩
  · rw [byteLength_append] at order ⊢
    cases inside with
    | nil => exact ⟨[], rfl, rfl⟩
    | cons c more =>
      have positive := byteLength_cons_pos c more
      omega

/-- From an offset on, a text reads only one way. -/
theorem ReadsAt.unique {text rest rest' : List Char} {offset : Nat}
    (reads : ReadsAt text offset rest) (reads' : ReadsAt text offset rest') : rest = rest' := by
  obtain ⟨front, rfl, rfl⟩ := reads
  obtain ⟨front', whole, length⟩ := reads'
  have dropped := dropBytes_append front' rest'
  rw [← whole, length, dropBytes_append] at dropped
  exact Option.some.inj dropped

/-- A text is cut out between the places where it starts and ends. -/
theorem ReadsAt.slice {text inside rest : List Char} {offset : Nat}
    (reads : ReadsAt text offset (inside ++ rest)) :
    sliceBytes offset (offset + byteLength inside) text = some inside := by
  obtain ⟨front, rfl, rfl⟩ := reads
  rw [sliceBytes, if_pos (Nat.le_add_right _ _), dropBytes_append, Option.bind_some,
    Nat.add_sub_cancel_left, takeBytes_append]

/-- At the end of a text nothing is read. -/
theorem ReadsAt.ended (text : List Char) : ReadsAt text (byteLength text) [] :=
  ⟨text, (List.append_nil text).symm, rfl⟩

end Slices

/-- At an offset of a text, a character stands that is not blank. -/
def VisibleAt (text : List Char) (offset : Nat) : Prop :=
  ∃ c rest, isBlank c = false ∧ ReadsAt text offset (c :: rest)

section Lines

/-- What a text has after its last newline. -/
def lastLine (text : List Char) : List Char := text.rtakeWhile (· != '\n')

/-- A text ends in its last line. -/
theorem exists_lastLine (text : List Char) : ∃ before, text = before ++ lastLine text :=
  ⟨_, List.rdropWhile_append_rtakeWhile.symm⟩

/-- Behind a newline the last line is empty. -/
theorem lastLine_newline (front : List Char) : lastLine (front ++ ['\n']) = [] :=
  List.rtakeWhile_concat_neg _ _ _ (by simp)

/-- Any other character belongs to the last line. -/
theorem lastLine_concat {c : Char} (sameLine : c ≠ '\n') (front : List Char) :
    lastLine (front ++ [c]) = lastLine front ++ [c] :=
  List.rtakeWhile_concat_pos _ _ _ (by simpa using sameLine)

/-- Behind the start of a text, the walk towards an offset has counted its newlines, and the
characters after the last of them. -/
theorem positionAt_append (front rest : List Char) {offset : Nat}
    (reaches : byteLength front ≤ offset) :
    positionAt (front ++ rest) offset =
      positionFrom offset (byteLength front) (front.count '\n' + 1) ((lastLine front).length + 1)
        (byteLength front - byteLength (lastLine front)) rest := by
  induction front using List.reverseRecOn generalizing rest with
  | nil => rfl
  | append_singleton front c ih =>
    have wide := c.utf8Size_pos
    have size : byteLength (front ++ [c]) = byteLength front + c.utf8Size :=
      byteLength_append front [c]
    rw [size] at reaches
    rw [List.append_assoc, List.singleton_append, ih (c :: rest) (by omega), positionFrom,
      if_neg (by omega), if_neg (by omega), size]
    by_cases newline : c = '\n'
    · rw [if_pos newline, newline, lastLine_newline, List.count_append, List.count_singleton_self]
      rfl
    · have start : byteLength (lastLine front ++ [c]) = byteLength (lastLine front) + c.utf8Size :=
        byteLength_append (lastLine front) [c]
      rw [if_neg newline, lastLine_concat newline, start, Nat.add_sub_add_right, List.count_append,
        List.count_singleton, if_neg (by simpa using newline), List.length_append]
      rfl

/-- The place between two parts of a text is told by the first part. -/
theorem positionAt_front (front rest : List Char) :
    positionAt (front ++ rest) (byteLength front) =
      ⟨front.count '\n' + 1, (lastLine front).length + 1⟩ := by
  rw [positionAt_append front rest le_rfl]
  cases rest <;> simp [positionFrom]

/-- An offset inside a character takes its column from the bytes since the start of the line. -/
theorem positionAt_inside {front rest : List Char} {c : Char} {offset : Nat}
    (enters : byteLength front < offset) (stays : offset < byteLength front + c.utf8Size) :
    positionAt (front ++ c :: rest) offset =
      ⟨front.count '\n' + 1, offset - (byteLength front - byteLength (lastLine front)) + 1⟩ := by
  rw [positionAt_append front (c :: rest) enters.le, positionFrom, if_neg (by omega), if_pos stays]

/-- An offset past the end is the end. -/
theorem positionAt_past {text : List Char} {offset : Nat} (past : byteLength text ≤ offset) :
    positionAt text offset = ⟨text.count '\n' + 1, (lastLine text).length + 1⟩ := by
  have walked := positionAt_append text [] past
  rwa [List.append_nil, positionFrom] at walked

/-- The line of an offset is one more than the newlines before it. -/
theorem line_positionAt (front rest : List Char) :
    (positionAt (front ++ rest) (byteLength front)).line = front.count '\n' + 1 := by
  rw [positionAt_front]

/-- Splitting gives one piece more than there are cuts. -/
theorem length_splitBy (cut : Char → Bool) (text : List Char) :
    (splitBy cut text).length = text.countP cut + 1 := by
  induction text with
  | nil => rfl
  | cons c rest ih =>
    by_cases cuts : cut c = true
    · rw [splitBy, if_pos cuts, List.length_cons, ih, List.countP_cons_of_pos cuts]
    · obtain ⟨head, tail, split, whole⟩ := splitBy_cons_of_not (Bool.eq_false_iff.mpr cuts) rest
      rw [split, List.length_cons] at ih
      rw [whole, List.length_cons, ih, List.countP_cons_of_neg cuts]

/-- The piece between two parts of a text is found by the cuts in the first part. -/
theorem getElem?_splitBy (cut : Char → Bool) (front rest : List Char) :
    (splitBy cut (front ++ rest))[front.countP cut]? =
      some (front.rtakeWhile (!cut ·) ++ rest.takeWhile (!cut ·)) := by
  have first (text : List Char) : (splitBy cut text)[0]? = some (text.takeWhile (!cut ·)) := by
    obtain ⟨others, whole, -⟩ := splitBy_eq_cons cut text
    rw [whole, List.getElem?_cons_zero]
  induction front using List.reverseRecOn generalizing rest with
  | nil => exact first rest
  | append_singleton front c ih =>
    rw [List.append_assoc, List.singleton_append, List.countP_append]
    by_cases cuts : cut c = true
    · have behind : front.countP cut + [c].countP cut = (splitBy cut front).length := by
        rw [length_splitBy, List.countP_singleton, if_pos cuts]
      rw [splitBy_append cuts, behind, List.getElem?_append_right le_rfl, Nat.sub_self, first,
        List.rtakeWhile_concat_neg _ _ _ (by simpa using cuts), List.nil_append]
    · have kept : (!cut c) = true := by simpa using cuts
      rw [List.countP_singleton, if_neg cuts, Nat.add_zero, ih (c :: rest),
        List.rtakeWhile_concat_pos (!cut ·) _ _ kept, List.takeWhile_cons, if_pos kept,
        List.append_assoc, List.singleton_append]

/-- Only empty lines are dropped at the end, so a line that is not empty stays. -/
theorem lt_length_dropTrailingEmpty {lines : List (List Char)} {line : List Char} {index : Nat}
    (found : lines[index]? = some line) (filled : line ≠ []) :
    index < (dropTrailingEmpty lines).length := by
  rw [dropTrailingEmpty_eq]
  induction lines using List.reverseRecOn with
  | nil => contradiction
  | append_singleton init last ih =>
    by_cases empty : last.isEmpty = true
    · rw [List.rdropWhile_concat_pos _ _ _ empty]
      have before : index < init.length := by
        have bound := (List.getElem?_eq_some_iff.mp found).1
        rw [List.length_append, List.length_singleton] at bound
        by_contra beyond
        have same : index = init.length := by omega
        rw [same, List.getElem?_concat_length] at found
        obtain rfl := Option.some.inj found
        exact filled (List.isEmpty_iff.mp empty)
      rw [List.getElem?_append_left before] at found
      exact ih found
    · rw [List.rdropWhile_concat_neg _ _ _ empty]
      exact (List.getElem?_eq_some_iff.mp found).1

/-- Whether a character belongs to the end of its line: a newline does, and a carriage return with a
newline or nothing behind it. -/
def EndsLine (c : Char) (rest : List Char) : Prop :=
  c = '\n' ∨ c = '\r' ∧ (rest = [] ∨ rest.head? = some '\n')

/-- Whether a character ends its line can be told from it and what follows. -/
instance (c : Char) (rest : List Char) : Decidable (EndsLine c rest) :=
  inferInstanceAs (Decidable (_ ∨ _))

/-- The carriage return that ends a line is its last character. -/
theorem getElem?_stripReturn (front : List Char) {c : Char} {more : List Char}
    (stays : c = '\r' → more ≠ []) :
    (stripReturn (front ++ c :: more))[front.length]? = some c := by
  unfold stripReturn
  split_ifs with last
  · have filled : more ≠ [] := by
      rintro rfl
      rw [List.getLast?_concat, Option.some.injEq] at last
      exact stays last rfl
    rw [List.dropLast_append_cons, List.dropLast_cons_of_ne_nil filled]
    simp
  · simp

/-- A line that is not empty without its line end stays where it is. -/
theorem getElem?_splitLines {text line : List Char} {index : Nat}
    (found : (splitOn '\n' text)[index]? = some line) (filled : stripReturn line ≠ []) :
    (splitLines text)[index]? = some (stripReturn line) := by
  have stripped : ((splitOn '\n' text).map stripReturn)[index]? = some (stripReturn line) := by
    rw [List.getElem?_map, found]
    rfl
  have bound : index < (splitLines text).length := lt_length_dropTrailingEmpty stripped filled
  obtain ⟨dropped, split⟩ : splitLines text <+: (splitOn '\n' text).map stripReturn :=
    List.rdropWhile_prefix _ _
  rwa [← split, List.getElem?_append_left bound] at stripped

/-- A character that does not end its line is shown in the line of its place, at the column of its
place. -/
theorem exists_shown {text rest : List Char} {offset : Nat} {c : Char}
    (reads : ReadsAt text offset (c :: rest)) (kept : ¬ EndsLine c rest) :
    ∃ line column shown, positionAt text offset = ⟨line + 1, column + 1⟩ ∧
      (splitLines text)[line]? = some shown ∧ shown[column]? = some c := by
  obtain ⟨front, rfl, rfl⟩ := reads
  rw [EndsLine, not_or, not_and_or, not_or] at kept
  obtain ⟨noNewline, kept⟩ := kept
  obtain ⟨more, behind⟩ : ∃ more, more = rest.takeWhile (!· == '\n') := ⟨_, rfl⟩
  have stays : c = '\r' → more ≠ [] := by
    rintro rfl rfl
    cases rest with
    | nil => simp at kept
    | cons next others =>
      have differs : next ≠ '\n' := by simpa using kept
      rw [List.takeWhile_cons_of_pos (by simpa using differs)] at behind
      contradiction
  have column := getElem?_stripReturn (lastLine front) stays
  have found : (splitOn '\n' (front ++ c :: rest))[front.count '\n']? =
      some (lastLine front ++ c :: more) := by
    have whole := getElem?_splitBy (· == '\n') front (c :: rest)
    rw [List.takeWhile_cons_of_pos (by simpa using noNewline), ← behind] at whole
    exact whole
  have filled : stripReturn (lastLine front ++ c :: more) ≠ [] := by
    intro none
    rw [none] at column
    contradiction
  exact ⟨_, _, _, positionAt_front front (c :: rest), getElem?_splitLines found filled, column⟩

/-- The line of a character that is not blank is among the lines of the text. -/
theorem VisibleAt.line_le {text : List Char} {offset : Nat} (there : VisibleAt text offset) :
    (positionAt text offset).line ≤ (splitLines text).length := by
  obtain ⟨c, rest, visible, reads⟩ := there
  have kept : ¬ EndsLine c rest := by
    rintro (rfl | ⟨rfl, -⟩)
    · exact absurd visible (by decide)
    · exact absurd visible (by decide)
  obtain ⟨line, column, shown, place, found, -⟩ := exists_shown reads kept
  rw [place]
  exact (List.getElem?_eq_some_iff.mp found).1

end Lines

end CfmlTidy.Text
