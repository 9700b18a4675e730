import Mathlib
import CfmlTidy.Proofs.Encoding.Ascii
import CfmlTidy.Proofs.Text.Position

/-!
# Cuts and bytes at offsets

A text is cut at byte offsets only between its characters, and a cut says what is read there. Bytes
can be looked up at every offset, also inside a character, but an ASCII byte is found only where its
character is read. So counting ASCII bytes up to any offset is counting characters of a front of the
text.
-/

namespace CfmlTidy.Text

open CfmlTidy.Encoding.Utf8 (byteOf count_encode count_encodeChar encode encode_cons
  encode_eq_append_cons_iff encodeChar_of_ascii length_encode)

variable {text rest inside : List Char} {offset start stop : Nat}

section Cuts

/-- A text is cut at an offset exactly when something is read there. -/
theorem dropBytes_eq_some_iff : dropBytes offset text = some rest ↔ ReadsAt text offset rest := by
  constructor
  · intro cut
    induction text generalizing offset with
    | nil =>
      cases offset with
      | zero => exact Option.some.inj cut ▸ ReadsAt.start []
      | succ before => contradiction
    | cons c others ih =>
      cases offset with
      | zero => exact Option.some.inj cut ▸ ReadsAt.start (c :: others)
      | succ before =>
        rw [dropBytes] at cut
        split_ifs at cut with fits
        obtain ⟨front, rfl, size⟩ := ih cut
        refine ⟨c :: front, rfl, ?_⟩
        rw [byteLength, size]
        omega
  · rintro ⟨front, rfl, rfl⟩
    exact dropBytes_append front rest

/-- So many bytes are taken from a text exactly when a front of it has them. -/
theorem takeBytes_eq_some_iff {count : Nat} :
    takeBytes count text = some inside ↔ inside <+: text ∧ byteLength inside = count := by
  constructor
  · intro cut
    induction text generalizing count inside with
    | nil =>
      cases count with
      | zero => exact Option.some.inj cut ▸ ⟨List.prefix_rfl, rfl⟩
      | succ before => contradiction
    | cons c others ih =>
      cases count with
      | zero => exact Option.some.inj cut ▸ ⟨List.nil_prefix, rfl⟩
      | succ before =>
        rw [takeBytes] at cut
        split_ifs at cut with fits
        obtain ⟨front, later, rfl⟩ := Option.map_eq_some_iff.mp cut
        obtain ⟨within, size⟩ := ih later
        refine ⟨(List.prefix_cons_inj c).mpr within, ?_⟩
        rw [byteLength, size]
        omega
  · rintro ⟨⟨behind, rfl⟩, rfl⟩
    exact takeBytes_append inside behind

/-- A text is cut out between two offsets exactly when it is read from the first up to the
second. -/
theorem sliceBytes_eq_some_iff :
    sliceBytes start stop text = some inside ↔
      (∃ rest, ReadsAt text start (inside ++ rest)) ∧ stop = start + byteLength inside := by
  constructor
  · intro cut
    rw [sliceBytes] at cut
    split_ifs at cut with order
    obtain ⟨front, dropped, taken⟩ := Option.bind_eq_some_iff.mp cut
    obtain ⟨⟨behind, rfl⟩, size⟩ := takeBytes_eq_some_iff.mp taken
    exact ⟨⟨behind, dropBytes_eq_some_iff.mp dropped⟩, by omega⟩
  · rintro ⟨⟨rest, reads⟩, rfl⟩
    exact reads.slice

/-- What is read at an offset goes up to the end. -/
theorem ReadsAt.add_byteLength (reads : ReadsAt text offset rest) :
    offset + byteLength rest = byteLength text := by
  obtain ⟨front, rfl, rfl⟩ := reads
  exact (byteLength_append front rest).symm

end Cuts

section Bytes

/-- An ASCII character is the one with the number of its byte. -/
theorem char_byteOf {a : Char} (ascii : a.toNat < 0x80) : Char.ofNat (byteOf a).toNat = a := by
  rw [byteOf, Encoding.toNat_byte (by omega), Char.ofNat_toNat]

/-- A byte is that of the character with its number. -/
theorem byteOf_char (byte : UInt8) : byteOf (Char.ofNat byte.toNat) = byte := by
  have small := byte.toNat_lt
  have valid : byte.toNat.isValidChar := Or.inl (by omega)
  rw [byteOf, Encoding.toNat_char valid, UInt8.ofNat_toNat]

/-- An ASCII character takes one byte. -/
theorem utf8Size_of_ascii {a : Char} (ascii : a.toNat < 0x80) : a.utf8Size = 1 := by
  rw [← String.length_utf8EncodeChar, encodeChar_of_ascii ascii, List.length_singleton]

/-- The bytes from an offset on are those of what is read there. -/
theorem ReadsAt.drop_encode (reads : ReadsAt text offset rest) :
    (encode text).drop offset = encode rest := by
  obtain ⟨front, rfl, rfl⟩ := reads
  exact Encoding.Utf8.drop_encode front rest

/-- The byte of an ASCII character stands exactly where the character is read. -/
theorem getElem?_encode_iff {a : Char} (ascii : a.toNat < 0x80) :
    (encode text)[offset]? = some (byteOf a) ↔ ∃ rest, ReadsAt text offset (a :: rest) := by
  constructor
  · intro found
    obtain ⟨bound, byte⟩ := List.getElem?_eq_some_iff.mp found
    have whole : encode text =
        (encode text).take offset ++ byteOf a :: (encode text).drop (offset + 1) := by
      rw [← byte, List.getElem_cons_drop, List.take_append_drop]
    obtain ⟨before, after, rfl, front, -⟩ := (encode_eq_append_cons_iff ascii).mp whole
    refine ⟨after, before, rfl, ?_⟩
    rw [← length_encode, ← front, List.length_take_of_le bound.le]
  · rintro ⟨rest, reads⟩
    have first : (encode (a :: rest))[0]? = some (byteOf a) := by
      rw [encode_cons, encodeChar_of_ascii ascii]
      rfl
    rw [← reads.drop_encode, List.getElem?_drop] at first
    exact first

/-- Up to any number of bytes, ASCII bytes are counted like the characters of a front of the text.
Bytes that do not make up a character are none of an ASCII character. -/
theorem exists_front_count (text : List Char) (size : Nat) :
    ∃ front, front <+: text ∧ ∀ a : Char, a.toNat < 0x80 →
      ((encode text).take size).count (byteOf a) = front.count a := by
  induction text generalizing size with
  | nil => exact ⟨[], List.prefix_rfl, by simp [encode]⟩
  | cons c others ih =>
    by_cases whole : c.utf8Size ≤ size
    · obtain ⟨front, within, counts⟩ := ih (size - c.utf8Size)
      refine ⟨c :: front, (List.prefix_cons_inj c).mpr within, ?_⟩
      intro a ascii
      have bytes : (encode (c :: others)).take size =
          String.utf8EncodeChar c ++ (encode others).take (size - c.utf8Size) := by
        rw [encode_cons, List.take_append, String.length_utf8EncodeChar,
          List.take_of_length_le (by rwa [String.length_utf8EncodeChar])]
      have single := count_encode ascii [c]
      rw [encode_cons] at single
      simp only [encode, List.flatMap_nil, List.append_nil] at single
      rw [bytes, List.count_append, counts a ascii, single, ← List.count_append]
      rfl
    · refine ⟨[], List.nil_prefix, ?_⟩
      intro a ascii
      have bytes : (encode (c :: others)).take size = (String.utf8EncodeChar c).take size := by
        rw [encode_cons, List.take_append_of_le_length]
        rw [String.length_utf8EncodeChar]
        omega
      rw [bytes, List.count_nil]
      by_cases same : c = a
      · subst same
        have none : size = 0 := by
          rw [utf8Size_of_ascii ascii] at whole
          omega
        rw [none]
        rfl
      · have absent := count_encodeChar ascii same
        exact Nat.le_zero.mp (absent ▸ (List.take_sublist size _).count_le _)

end Bytes

end CfmlTidy.Text
