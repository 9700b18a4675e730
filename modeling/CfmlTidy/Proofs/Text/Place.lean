import Mathlib
import CfmlTidy.Proofs.Encoding.Ascii
import CfmlTidy.Proofs.Text.Position

/-!
# Places of offsets

A place can be found without walking over the text: look up the offset among the starts of lines,
and count the characters since the last start. That is the same place, also for offsets inside a
character, which take their column from the bytes, and for offsets past the end.

Places keep the order of offsets between characters, and the character at an offset is found again
in the lines of the text. The first holds because what stands between two offsets either has a
newline or adds characters to the line.
-/

namespace CfmlTidy.Text

open CfmlTidy.Encoding.Utf8 (byteOf count_encode count_encodeChar encode encode_append encode_cons
  encodeChar_of_ascii length_encode)

/-- The offsets behind newlines, in a text that starts at an offset. -/
def startsFrom : (seen : Nat) → List Char → List Nat
  | _, [] => []
  | seen, c :: rest =>
    if c = '\n' then (seen + c.utf8Size) :: startsFrom (seen + c.utf8Size) rest
    else startsFrom (seen + c.utf8Size) rest

/-- The offsets at which the lines of a text start. -/
def lineStarts (text : List Char) : List Nat := 0 :: startsFrom 0 text

/-- The place of an offset looked up among the starts of lines. -/
def lookUpPlace (text : List Char) (offset : Nat) : Position :=
  let stop := min offset (byteLength text)
  let line := ((lineStarts text).takeWhile (· ≤ stop)).length
  let start := ((lineStarts text)[line - 1]?).getD 0
  ⟨line, (sliceBytes start stop text).elim (stop - start) List.length + 1⟩

/-- One place comes before another: on an earlier line, or further to the left. -/
def Position.Precedes (first second : Position) : Prop :=
  first.line < second.line ∨ first.line = second.line ∧ first.column < second.column

/-- Whether a place precedes another can be told by their lines and columns. -/
instance (first second : Position) : Decidable (first.Precedes second) :=
  inferInstanceAs (Decidable (_ ∨ _))

section Bytes

/-- The line of an offset is one more than the newlines among the bytes before it. Of the character
that the offset lies in, the bytes before the offset have no newline. -/
theorem line_positionAt_bytes (text : List Char) (offset : Nat) :
    (positionAt text offset).line = ((encode text).take offset).count (byteOf '\n') + 1 := by
  by_cases inside : offset < byteLength text
  · obtain ⟨front, c, rest, rfl, reaches, stays⟩ := exists_front_of_lt inside
    obtain ⟨into, rfl⟩ := Nat.exists_eq_add_of_le reaches
    have part : ((String.utf8EncodeChar c).take into).count (byteOf '\n') = 0 := by
      by_cases newline : c = '\n'
      · obtain rfl : into = 0 := by
          rw [newline] at stays
          have single : '\n'.utf8Size = 1 := rfl
          omega
        rfl
      · have none := count_encodeChar (a := '\n') (by decide) newline
        exact Nat.le_zero.mp (none ▸ (List.take_sublist into _).count_le _)
    have bytes : (encode (front ++ c :: rest)).take (byteLength front + into) =
        encode front ++ (String.utf8EncodeChar c).take into := by
      rw [encode_append, ← length_encode, List.take_length_add_append, encode_cons,
        List.take_append_of_le_length]
      rw [String.length_utf8EncodeChar]
      omega
    rw [bytes, List.count_append, count_encode (by decide), part, Nat.add_zero]
    rcases Nat.eq_zero_or_pos into with rfl | enters
    · exact line_positionAt front (c :: rest)
    · rw [positionAt_inside (by omega) stays]
  · have past : byteLength text ≤ offset := Nat.le_of_not_lt inside
    rw [positionAt_past past, List.take_of_length_le (by rwa [length_encode]),
      count_encode (by decide)]

/-- The line of an offset is one of the lines that are counted. -/
theorem line_positionAt_le (text : List Char) (offset : Nat) :
    (positionAt text offset).line ≤ lineCount text := by
  have fewer := (List.take_sublist offset (encode text)).count_le (byteOf '\n')
  rw [count_encode (by decide)] at fewer
  rw [line_positionAt_bytes, lineCount]
  omega

end Bytes

section Order

variable {text before after : List Char} {first second : Nat}

/-- Text without a newline adds to the last line. -/
theorem lastLine_append {more : List Char} (sameLine : '\n' ∉ more) (front : List Char) :
    lastLine (front ++ more) = lastLine front ++ more := by
  induction more using List.reverseRecOn with
  | nil => simp
  | append_singleton more c ih =>
    rw [List.mem_append, List.mem_singleton, not_or] at sameLine
    rw [← List.append_assoc, lastLine_concat (Ne.symm sameLine.2), ih sameLine.1, List.append_assoc]

/-- Between two parts of a text the place comes before any place after the second part. -/
theorem precedes_append {more : List Char} (filled : more ≠ []) (front rest : List Char) :
    (positionAt (front ++ more ++ rest) (byteLength front)).Precedes
      (positionAt (front ++ more ++ rest) (byteLength (front ++ more))) := by
  rw [positionAt_front (front ++ more) rest, List.append_assoc, positionAt_front,
    Position.Precedes, List.count_append]
  by_cases newline : '\n' ∈ more
  · have counted := List.count_pos_iff.mpr newline
    exact Or.inl (by simpa using counted)
  · refine Or.inr ⟨by simp [List.count_eq_zero.mpr newline], ?_⟩
    have longer := List.length_pos_iff.mpr filled
    rw [lastLine_append newline, List.length_append]
    simp only
    omega

/-- No two places precede each other. -/
theorem Position.Precedes.asymm {first second : Position} (precedes : first.Precedes second) :
    ¬ second.Precedes first := by
  unfold Position.Precedes at *
  omega

/-- Places between characters are in the order of their offsets. -/
theorem precedes_iff (reads : ReadsAt text first before) (reads' : ReadsAt text second after) :
    (positionAt text first).Precedes (positionAt text second) ↔ first < second := by
  have forward {first second : Nat} {before after : List Char} (reads : ReadsAt text first before)
      (reads' : ReadsAt text second after) (less : first < second) :
      (positionAt text first).Precedes (positionAt text second) := by
    obtain ⟨front, whole, rfl⟩ := reads
    obtain ⟨longer, whole', rfl⟩ := reads'
    rcases List.append_eq_append_iff.mp (whole.symm.trans whole') with
      ⟨more, rfl, -⟩ | ⟨more, rfl, -⟩
    · have filled : more ≠ [] := by
        rintro rfl
        simp at less
      rw [whole']
      exact precedes_append filled front after
    · rw [byteLength_append] at less
      omega
  constructor
  · intro precedes
    rcases Nat.lt_trichotomy first second with less | rfl | more
    · exact less
    · exact absurd precedes precedes.asymm
    · exact absurd precedes (forward reads' reads more).asymm
  · exact forward reads reads'

end Order

section Starts

/-- The starts of the lines of two parts are those of the first, and those behind newlines of the
second. -/
theorem lineStarts_append (front rest : List Char) :
    lineStarts (front ++ rest) = lineStarts front ++ startsFrom (byteLength front) rest := by
  have split (seen : Nat) : startsFrom seen (front ++ rest) =
      startsFrom seen front ++ startsFrom (seen + byteLength front) rest := by
    induction front generalizing seen with
    | nil => rfl
    | cons c front ih =>
      rw [List.cons_append, startsFrom, startsFrom, byteLength, ← Nat.add_assoc, ih]
      split_ifs <;> rfl
  rw [lineStarts, split, Nat.zero_add]
  rfl

/-- A newline starts a line behind it. -/
theorem lineStarts_newline (front : List Char) :
    lineStarts (front ++ ['\n']) = lineStarts front ++ [byteLength front + 1] :=
  lineStarts_append front ['\n']

/-- Any other character starts no line. -/
theorem lineStarts_concat {c : Char} (sameLine : c ≠ '\n') (front : List Char) :
    lineStarts (front ++ [c]) = lineStarts front := by
  rw [lineStarts_append, startsFrom, if_neg sameLine, startsFrom, List.append_nil]

/-- A text has as many line starts as lines. -/
theorem length_lineStarts (text : List Char) : (lineStarts text).length = lineCount text := by
  induction text using List.reverseRecOn with
  | nil => rfl
  | append_singleton front c ih =>
    by_cases newline : c = '\n'
    · rw [newline, lineStarts_newline, List.length_append, ih, lineCount, lineCount,
        List.count_append]
      rfl
    · rw [lineStarts_concat newline, ih, lineCount, lineCount, List.count_append,
        List.count_singleton, if_neg (by simpa using newline)]

/-- No line starts behind the end. -/
theorem le_of_mem_lineStarts {text : List Char} {start : Nat} (listed : start ∈ lineStarts text) :
    start ≤ byteLength text := by
  induction text using List.reverseRecOn with
  | nil => simpa [lineStarts, startsFrom, byteLength] using listed
  | append_singleton front c ih =>
    rw [byteLength_append]
    by_cases newline : c = '\n'
    · rw [newline, lineStarts_newline, List.mem_append, List.mem_singleton] at listed
      rcases listed with early | rfl
      · exact Nat.le_add_right_of_le (ih early)
      · rw [newline]
        exact le_rfl
    · rw [lineStarts_concat newline] at listed
      exact Nat.le_add_right_of_le (ih listed)

/-- The last line starts before the characters after the last newline. -/
theorem getElem?_lineStarts (text : List Char) :
    (lineStarts text)[text.count '\n']? = some (byteLength text - byteLength (lastLine text)) := by
  induction text using List.reverseRecOn with
  | nil => rfl
  | append_singleton front c ih =>
    rw [byteLength_append, List.count_append]
    by_cases newline : c = '\n'
    · have last : front.count '\n' + 1 = (lineStarts front).length := (length_lineStarts front).symm
      rw [newline, lineStarts_newline, lastLine_newline, List.count_singleton_self, last,
        List.getElem?_concat_length]
      rfl
    · rw [lineStarts_concat newline, lastLine_concat newline, byteLength_append,
        Nat.add_sub_add_right, List.count_singleton, if_neg (by simpa using newline), Nat.add_zero,
        ih]

/-- Behind newlines lines start later. -/
theorem lt_of_mem_startsFrom {seen start : Nat} {rest : List Char}
    (listed : start ∈ startsFrom seen rest) : ∀ c ∈ rest.head?, seen + c.utf8Size ≤ start := by
  induction rest generalizing seen with
  | nil => simp
  | cons first others ih =>
    rintro c ⟨⟩
    have later (inside : start ∈ startsFrom (seen + first.utf8Size) others) :
        seen + first.utf8Size ≤ start := by
      cases others with
      | nil => contradiction
      | cons next more =>
        exact le_trans (Nat.le_add_right _ _) (ih inside next rfl)
    rw [startsFrom] at listed
    split_ifs at listed
    · rcases List.mem_cons.mp listed with rfl | inside
      · exact le_rfl
      · exact later inside
    · exact later listed

/-- Between two parts of a text, the starts of lines up to an offset are those of the first part. -/
theorem takeWhile_lineStarts {front rest : List Char} {offset : Nat}
    (reaches : byteLength front ≤ offset)
    (stays : ∀ c ∈ rest.head?, offset < byteLength front + c.utf8Size) :
    (lineStarts (front ++ rest)).takeWhile (· ≤ offset) = lineStarts front := by
  have early : ∀ start ∈ lineStarts front, decide (start ≤ offset) = true := by
    intro start listed
    exact decide_eq_true (le_trans (le_of_mem_lineStarts listed) reaches)
  have late : (startsFrom (byteLength front) rest).takeWhile (· ≤ offset) = [] := by
    cases rest with
    | nil => rfl
    | cons c rest =>
      cases starts : startsFrom (byteLength front) (c :: rest) with
      | nil => rfl
      | cons start others =>
        have behind := lt_of_mem_startsFrom (starts ▸ List.mem_cons_self) c rfl
        have beyond := stays c rfl
        exact List.takeWhile_cons_of_neg (by simpa using Nat.lt_of_lt_of_le beyond behind)
  rw [lineStarts_append, List.takeWhile_append_of_pos early, late, List.append_nil]

/-- At or in the first character of the second part of a text, the place that is looked up is on the
last line of the first part, and its column is read off the text from the start of that line. -/
theorem lookUpPlace_append {front rest : List Char} {offset into : Nat}
    (stops : min offset (byteLength (front ++ rest)) = byteLength front + into)
    (stays : ∀ c ∈ rest.head?, into < c.utf8Size) :
    lookUpPlace (front ++ rest) offset =
      ⟨front.count '\n' + 1,
        (takeBytes (byteLength (lastLine front) + into) (lastLine front ++ rest)).elim
          (byteLength (lastLine front) + into) List.length + 1⟩ := by
  obtain ⟨before, split⟩ := exists_lastLine front
  have size : byteLength front = byteLength before + byteLength (lastLine front) := by
    conv_lhs => rw [split]
    exact byteLength_append before (lastLine front)
  have starts : (lineStarts (front ++ rest)).takeWhile (· ≤ byteLength front + into) =
      lineStarts front :=
    takeWhile_lineStarts (Nat.le_add_right _ _)
      fun c listed => Nat.add_lt_add_left (stays c listed) _
  have start : (lineStarts (front ++ rest))[front.count '\n']? = some (byteLength before) := by
    have found := getElem?_lineStarts front
    rw [size, Nat.add_sub_cancel] at found
    rw [lineStarts_append, List.getElem?_append_left (List.getElem?_eq_some_iff.mp found).1, found]
  have line : front ++ rest = before ++ (lastLine front ++ rest) := by
    rw [← List.append_assoc, ← split]
  have slice : sliceBytes (byteLength before) (byteLength front + into) (front ++ rest) =
      takeBytes (byteLength (lastLine front) + into) (lastLine front ++ rest) := by
    rw [sliceBytes, if_pos (by omega), line, dropBytes_append, Option.bind_some]
    congr 1
    omega
  have bytes : byteLength front + into - byteLength before =
      byteLength (lastLine front) + into := by omega
  simp only [lookUpPlace, stops, starts, length_lineStarts, lineCount, Nat.add_sub_cancel, start,
    Option.getD_some, slice, bytes]

/-- The place of an offset is the one that is looked up. -/
theorem positionAt_eq_lookUpPlace (text : List Char) (offset : Nat) :
    positionAt text offset = lookUpPlace text offset := by
  by_cases inside : offset < byteLength text
  · obtain ⟨front, c, rest, rfl, reaches, stays⟩ := exists_front_of_lt inside
    obtain ⟨into, rfl⟩ := Nat.exists_eq_add_of_le reaches
    have within : ∀ first ∈ (c :: rest).head?, into < first.utf8Size := by
      rintro first ⟨⟩
      omega
    rw [lookUpPlace_append (Nat.min_eq_left inside.le) within]
    rcases Nat.eq_zero_or_pos into with rfl | enters
    · simp only [Nat.add_zero, takeBytes_append]
      exact positionAt_front front (c :: rest)
    · have shorter : byteLength (lastLine front) ≤ byteLength front := by
        obtain ⟨before, split⟩ := exists_lastLine front
        have size := congrArg byteLength split
        rw [byteLength_append] at size
        omega
      rw [positionAt_inside (by omega) stays, takeBytes_inside (by omega) (by omega)]
      simp only [Option.elim_none]
      congr 2
      omega
  · have past : byteLength text ≤ offset := Nat.le_of_not_lt inside
    have found := @lookUpPlace_append text [] offset 0
      (by rw [List.append_nil, Nat.min_eq_right past, Nat.add_zero]) (by simp)
    simp only [Nat.add_zero, takeBytes_append] at found
    rw [List.append_nil] at found
    rw [positionAt_past past, found]
    rfl

end Starts

/-- Places and lines agree. A character that does not end its line is shown at the column of its
place in the line of its place. The line of any offset is one more than the newlines before it and
is one of the lines that are counted, and past the end is the end. Between characters, places are in
the order of their offsets. Looking up among the starts of lines finds the same places. -/
theorem positionAt_agrees (text : List Char) :
    (∀ (offset : Nat) (c : Char) (rest : List Char), ReadsAt text offset (c :: rest) →
      ¬ EndsLine c rest →
        ∃ line column shown, positionAt text offset = ⟨line + 1, column + 1⟩ ∧
          (splitLines text)[line]? = some shown ∧ shown[column]? = some c) ∧
      (∀ offset : Nat,
        (positionAt text offset).line = ((encode text).take offset).count (byteOf '\n') + 1 ∧
          1 ≤ (positionAt text offset).line ∧ (positionAt text offset).line ≤ lineCount text) ∧
      (∀ offset : Nat, byteLength text ≤ offset →
        positionAt text offset = positionAt text (byteLength text)) ∧
      (∀ (first second : Nat) (before after : List Char), ReadsAt text first before →
        ReadsAt text second after →
          ((positionAt text first).Precedes (positionAt text second) ↔ first < second)) ∧
      (lineStarts text).length = lineCount text ∧
      ∀ offset : Nat, positionAt text offset = lookUpPlace text offset := by
  refine ⟨?_, ?_, ?_, ?_, length_lineStarts text, positionAt_eq_lookUpPlace text⟩
  · exact fun offset c rest reads kept => exists_shown reads kept
  · intro offset
    have counted := line_positionAt_bytes text offset
    exact ⟨counted, by omega, line_positionAt_le text offset⟩
  · intro offset past
    rw [positionAt_past past, positionAt_past le_rfl]
  · exact fun first second before after reads reads' => precedes_iff reads reads'

/-- A text with line ends of two kinds, a carriage return inside a line, a character of two bytes,
and empty lines at the end. -/
def mixedEnds : List Char := "ab\r\nçd\r\r\nx\n\n".toList

/-- The carriage return that another one follows is the third character of the second line. -/
theorem positionAt_agrees_mixedEnds :
    ReadsAt mixedEnds 7 "\r\r\nx\n\n".toList ∧ ¬ EndsLine '\r' "\r\nx\n\n".toList ∧
      positionAt mixedEnds 7 = ⟨2, 3⟩ ∧
        ∃ shown, (splitLines mixedEnds)[1]? = some shown ∧ shown[2]? = some '\r' := by
  have reads : ReadsAt mixedEnds 7 "\r\r\nx\n\n".toList :=
    ⟨"ab\r\nçd".toList, by decide, by decide⟩
  have kept : ¬ EndsLine '\r' "\r\nx\n\n".toList := by decide
  have second : positionAt mixedEnds 7 = ⟨2, 3⟩ := by decide
  obtain ⟨line, column, shown, place, found, there⟩ :=
    (positionAt_agrees mixedEnds).1 7 '\r' _ reads kept
  obtain ⟨rfl, rfl⟩ : line = 1 ∧ column = 2 := by simpa [second, eq_comm] using place
  exact ⟨reads, kept, second, shown, found, there⟩

end CfmlTidy.Text
