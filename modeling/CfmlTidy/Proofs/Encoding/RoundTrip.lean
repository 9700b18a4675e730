import Mathlib
import CfmlTidy.Encoding.Basic
import CfmlTidy.Proofs.Encoding.Utf8
import CfmlTidy.Proofs.Encoding.Wide

/-!
# Round trips of the nine encodings

Each of the nine encodings is an exact reader and writer. Those with one byte per character come
down to facts about single bytes; windows-1252 is the one with a table, and its characters are
all beyond U+00FF, so that no character has two bytes.
-/

namespace CfmlTidy.Encoding

namespace SingleByte

/-- The character of a byte has the number of the byte. -/
theorem toNat_latinChar (byte : UInt8) : (latinChar byte).toNat = byte.toNat := by
  have small := byte.toNat_lt
  exact toNat_char (Or.inl (by omega))

/-- A character with the number of a byte is read from that byte. -/
theorem latinChar_ofNat {c : Char} (small : c.toNat ≤ 0xFF) :
    latinChar (UInt8.ofNat c.toNat) = c := by
  rw [latinChar, toNat_byte (by omega), Char.ofNat_toNat]

/-- ISO-8859-1 is exact. -/
theorem latin_exact :
    Exact (fun bytes => bytes.map latinChar) (fun text => text.mapM latinByte?) := by
  apply Exact.of_bytewise
  · intro c byte written
    unfold latinByte? at written
    split_ifs at written with small
    obtain rfl := Option.some.inj written
    exact latinChar_ofNat small
  · intro byte _
    have small := byte.toNat_lt
    rw [latinByte?, toNat_latinChar, if_pos (by omega), UInt8.ofNat_toNat]

/-- US-ASCII is exact. -/
theorem ascii_exact :
    Exact (fun bytes => bytes.map asciiChar) (fun text => text.mapM asciiByte?) := by
  apply Exact.of_bytewise
  · intro c byte written
    unfold asciiByte? at written
    split_ifs at written with small
    obtain rfl := Option.some.inj written
    have low : UInt8.ofNat c.toNat < 0x80 := by
      rw [UInt8.lt_iff_toNat_lt, toNat_byte (by omega)]
      exact small
    rw [asciiChar, if_pos low, latinChar_ofNat (by omega)]
  · intro byte readable
    unfold asciiChar at readable ⊢
    split_ifs at readable ⊢ with low
    · have small : byte.toNat < 0x80 := UInt8.lt_iff_toNat_lt.mp low
      rw [asciiByte?, toNat_latinChar, if_pos small, UInt8.ofNat_toNat]
    · exact absurd rfl readable

/-- The bytes of windows-1252 that the table is for. -/
theorem isHigh_iff (byte : UInt8) :
    (decide (0x80 ≤ byte) && decide (byte ≤ 0x9F)) = true ↔
      0x80 ≤ byte.toNat ∧ byte.toNat ≤ 0x9F := by
  simp [UInt8.le_iff_toNat_le]

/-- The table in one check, entry by entry. -/
theorem windowsHigh_checked :
    ∀ index < 32, (windowsHigh[index]?).join.all (fun c =>
      0xFF < c.toNat && windowsHigh.findIdx? (· == some c) == some index) = true := by
  decide +kernel

/-- Every character of the table stands beyond U+00FF and is found first at its own index. -/
theorem windowsHigh_found {index : Nat} {c : Char} (inside : index < 32)
    (listed : (windowsHigh[index]?).join = some c) :
    0xFF < c.toNat ∧ windowsHigh.findIdx? (· == some c) = some index := by
  have checked := windowsHigh_checked index inside
  rw [listed, Option.all_some, Bool.and_eq_true, decide_eq_true_eq, beq_iff_eq] at checked
  exact checked

/-- A byte of the table reads as the character at its index. -/
theorem windowsChar_high {index : Nat} {c : Char} (inside : index < 32)
    (listed : (windowsHigh[index]?).join = some c) : windowsChar (UInt8.ofNat (0x80 + index)) = c := by
  have number := toNat_byte (show 0x80 + index < 256 by omega)
  rw [windowsChar, if_pos ((isHigh_iff _).mpr (by omega)), number, Nat.add_sub_cancel_left, listed,
    Option.getD_some]

/-- windows-1252 is exact. A byte without a character would have been read as the replacement
character. -/
theorem windows_exact :
    Exact (fun bytes => bytes.map windowsChar) (fun text => text.mapM windowsByte?) := by
  apply Exact.of_bytewise
  · intro c byte written
    unfold windowsByte? at written
    split_ifs at written with control small
    · obtain rfl := Option.some.inj written
      have number := toNat_byte (show c.toNat < 256 by omega)
      have plain : ¬ (decide (0x80 ≤ UInt8.ofNat c.toNat) &&
          decide (UInt8.ofNat c.toNat ≤ 0x9F)) = true := by
        rw [isHigh_iff, number]
        simpa using control
      rw [windowsChar, if_neg plain, latinChar_ofNat small]
    · obtain ⟨index, found, rfl⟩ := Option.map_eq_some_iff.mp written
      obtain ⟨inside, same, _⟩ := List.findIdx?_eq_some_iff_getElem.mp found
      have listed : (windowsHigh[index]?).join = some c := by
        rw [List.getElem?_eq_getElem inside]
        exact eq_of_beq same
      exact windowsChar_high inside listed
  · intro byte readable
    unfold windowsChar at readable ⊢
    split_ifs at readable ⊢ with high
    · have range := (isHigh_iff byte).mp high
      cases entry : (windowsHigh[byte.toNat - 0x80]?).join with
      | none => exact absurd (by rw [entry]; rfl) readable
      | some c =>
        obtain ⟨beyond, found⟩ := windowsHigh_found (by omega) entry
        have outside : ¬ (decide (0x80 ≤ c.toNat) && decide (c.toNat ≤ 0x9F)) = true := by
          simp only [Bool.and_eq_true, decide_eq_true_eq]
          omega
        rw [Option.getD_some, windowsByte?, if_neg outside, if_neg (by omega), found,
          Option.map_some, byte_of_toNat byte (by omega)]
    · have small := byte.toNat_lt
      rw [isHigh_iff] at high
      have outside : ¬ (decide (0x80 ≤ (latinChar byte).toNat) &&
          decide ((latinChar byte).toNat ≤ 0x9F)) = true := by
        rw [toNat_latinChar]
        simpa using high
      rw [windowsByte?, if_neg outside, toNat_latinChar, if_pos (by omega), UInt8.ofNat_toNat]

end SingleByte

/-- Every encoding is exact. -/
theorem encoding_exact (encoding : Encoding) : Exact encoding.decode encoding.encode? := by
  cases encoding with
  | utf8 => exact Utf8.utf8_exact
  | utf16 => exact Utf16.utf16_exact .big
  | utf16be => exact Utf16.utf16_exact .big
  | utf16le => exact Utf16.utf16_exact .little
  | utf32be => exact Utf32.utf32_exact .big
  | utf32le => exact Utf32.utf32_exact .little
  | latin1 => exact SingleByte.latin_exact
  | windows1252 => exact SingleByte.windows_exact
  | ascii => exact SingleByte.ascii_exact

/-- In each of the nine encodings, written bytes are read back as the text they were written for,
and bytes whose reading has no replacement character are written back as they were. -/
theorem decode_encode_inverse (encoding : Encoding) :
    (∀ text bytes, encoding.encode? text = some bytes → encoding.decode bytes = text) ∧
      ∀ bytes, replacement ∉ encoding.decode bytes →
        encoding.encode? (encoding.decode bytes) = some bytes :=
  ⟨(encoding_exact encoding).lawful, (encoding_exact encoding).canonical⟩

/-- Both directions at windows-1252: the euro sign is written as the byte 80, and that byte is
read without a replacement character. -/
theorem decode_encode_inverse_euro :
    windows1252.encode? ['\u20AC'] = some [0x80] ∧ windows1252.decode [0x80] = ['\u20AC'] ∧
      replacement ∉ windows1252.decode [0x80] ∧
      windows1252.encode? (windows1252.decode [0x80]) = some [0x80] :=
  ⟨by decide, (decode_encode_inverse windows1252).1 ['\u20AC'] [0x80] (by decide), by decide,
    (decode_encode_inverse windows1252).2 [0x80] (by decide)⟩

end CfmlTidy.Encoding
