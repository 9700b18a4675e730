import Mathlib
import CfmlTidy.Encoding.Utf8

/-!
# Exact readers and writers

A reader of bytes never fails and a writer of text may. The pair is exact when reading undoes
writing, and when writing undoes every reading that has no replacement character. The numbers of
bytes and of characters, which the laws of the encodings compare, are read back here.
-/

namespace CfmlTidy.Encoding

/-- Both laws of a reader and a writer: neither loses anything that the other can hold. -/
structure Exact (decode : List UInt8 → List Char)
    (encode? : List Char → Option (List UInt8)) : Prop where
  /-- Reading written bytes returns the text. -/
  lawful : ∀ text bytes, encode? text = some bytes → decode bytes = text
  /-- Writing a reading without replacement characters returns the bytes. -/
  canonical : ∀ bytes, replacement ∉ decode bytes → encode? (decode bytes) = some bytes

/-- A writer that never fails is exact with a reader that it undoes and that undoes it. -/
theorem Exact.of_total {decode : List UInt8 → List Char} {encode : List Char → List UInt8}
    (undone : ∀ text, decode (encode text) = text)
    (redone : ∀ bytes, replacement ∉ decode bytes → encode (decode bytes) = bytes) :
    Exact decode (fun text => some (encode text)) where
  lawful text bytes written := by
    obtain rfl := Option.some.inj written
    exact undone text
  canonical bytes clean := by
    rw [redone bytes clean]

/-- A text is written character by character exactly when it is read back byte by byte. -/
theorem Exact.of_bytewise {charOf : UInt8 → Char} {byteOf? : Char → Option UInt8}
    (undone : ∀ c byte, byteOf? c = some byte → charOf byte = c)
    (redone : ∀ byte, charOf byte ≠ replacement → byteOf? (charOf byte) = some byte) :
    Exact (fun bytes => bytes.map charOf) (fun text => text.mapM byteOf?) where
  lawful text := by
    induction text with
    | nil =>
      intro bytes written
      obtain rfl : [] = bytes := Option.some.inj written
      rfl
    | cons c rest ih =>
      intro bytes written
      simp only [List.mapM_cons, Option.bind_eq_bind, Option.bind_eq_some_iff, Option.pure_def,
        Option.some.injEq] at written
      obtain ⟨byte, first, later, others, rfl⟩ := written
      rw [List.map_cons, undone c byte first, ih later others]
  canonical bytes clean := by
    induction bytes with
    | nil => rfl
    | cons byte rest ih =>
      rw [List.map_cons, List.mem_cons, not_or] at clean
      rw [List.map_cons, List.mapM_cons, redone byte (Ne.symm clean.1), ih clean.2]
      rfl

/-- The number of a character reads back from the character. -/
theorem toNat_char {value : Nat} (valid : value.isValidChar) :
    (Char.ofNat value).toNat = value := by
  rw [Char.toNat_ofNat, if_pos valid]

/-- A number that fits a byte reads back from the byte. -/
theorem toNat_byte {value : Nat} (small : value < 256) : (UInt8.ofNat value).toNat = value := by
  rw [UInt8.toNat_ofNat', Nat.mod_eq_of_lt small]

/-- The number of a byte is written as that byte. -/
theorem byte_of_toNat {value : Nat} (byte : UInt8) (same : value = byte.toNat) :
    UInt8.ofNat value = byte := by
  rw [same, UInt8.ofNat_toNat]

/-- The number of a character lies below the surrogates or above them, up to U+10FFFF. -/
theorem char_valid (c : Char) : c.toNat < 0xD800 ∨ 0xDFFF < c.toNat ∧ c.toNat < 0x110000 :=
  c.valid

end CfmlTidy.Encoding
