import Mathlib
import CfmlTidy.Proofs.Encoding.Exact

/-!
# UTF-8 is exact

The bytes of a character are told apart by the width that the first byte announces and by the
range of the second. Both directions rest on that: a character is read back from its bytes
whatever follows them, and bytes that a character is read from are the bytes it is written as.
-/

namespace CfmlTidy.Encoding.Utf8

/-- The width in terms of the number of the first byte. -/
theorem width_eq (lead : UInt8) :
    width lead =
      if lead.toNat < 0x80 then 1
      else if lead.toNat < 0xC2 then 0
      else if lead.toNat < 0xE0 then 2
      else if lead.toNat < 0xF0 then 3
      else if lead.toNat < 0xF5 then 4
      else 0 := by
  simp only [width, UInt8.lt_iff_toNat_lt, UInt8.le_iff_toNat_le, Bool.and_eq_true,
    decide_eq_true_eq, UInt8.reduceToNat]
  grind

/-- One byte is announced exactly by the ASCII bytes. -/
theorem width_eq_one_iff {lead : UInt8} : width lead = 1 ↔ lead.toNat < 0x80 := by
  rw [width_eq]
  grind

/-- Two bytes are announced from C2 to DF. -/
theorem width_eq_two_iff {lead : UInt8} :
    width lead = 2 ↔ 0xC2 ≤ lead.toNat ∧ lead.toNat < 0xE0 := by
  rw [width_eq]
  grind

/-- Three bytes are announced from E0 to EF. -/
theorem width_eq_three_iff {lead : UInt8} :
    width lead = 3 ↔ 0xE0 ≤ lead.toNat ∧ lead.toNat < 0xF0 := by
  rw [width_eq]
  grind

/-- Four bytes are announced from F0 to F4. -/
theorem width_eq_four_iff {lead : UInt8} :
    width lead = 4 ↔ 0xF0 ≤ lead.toNat ∧ lead.toNat < 0xF5 := by
  rw [width_eq]
  grind

/-- A continuation in terms of its number. -/
theorem isContinuation_iff {byte : UInt8} :
    isContinuation byte = true ↔ 0x80 ≤ byte.toNat ∧ byte.toNat < 0xC0 := by
  simp only [isContinuation, UInt8.le_iff_toNat_le, Bool.and_eq_true, decide_eq_true_eq,
    UInt8.reduceToNat]
  omega

/-- A second byte is a continuation, narrowed after four of the first bytes. -/
theorem isSecond_iff {lead second : UInt8} :
    isSecond lead second = true ↔
      (0x80 ≤ second.toNat ∧ second.toNat < 0xC0) ∧
        (lead.toNat = 0xE0 → 0xA0 ≤ second.toNat) ∧ (lead.toNat = 0xED → second.toNat < 0xA0) ∧
        (lead.toNat = 0xF0 → 0x90 ≤ second.toNat) ∧ (lead.toNat = 0xF4 → second.toNat < 0x90) := by
  simp only [isSecond, isContinuation, UInt8.le_iff_toNat_le, ← UInt8.toNat_inj,
    UInt8.reduceToNat]
  grind

/-- A byte that announces one byte is read as one character. -/
theorem decode_of_width_one {first : UInt8} (rest : List UInt8) (one : width first = 1) :
    decode (first :: rest) = Char.ofNat first.toNat :: decode rest := by
  rw [decode.eq_def]
  simp only [one]

/-- Two bytes that belong together are read as one character. -/
theorem decode_of_width_two {first second : UInt8} (rest : List UInt8) (two : width first = 2)
    (follows : isSecond first second = true) :
    decode (first :: second :: rest) = char2 first second :: decode rest := by
  rw [decode.eq_def]
  simp only [two, follows, if_true]

/-- Three bytes that belong together are read as one character. -/
theorem decode_of_width_three {first second third : UInt8} (rest : List UInt8)
    (three : width first = 3) (follows : isSecond first second = true)
    (last : isContinuation third = true) :
    decode (first :: second :: third :: rest) = char3 first second third :: decode rest := by
  rw [decode.eq_def]
  simp only [three, follows, last, if_true]

/-- Four bytes that belong together are read as one character. -/
theorem decode_of_width_four {first second third fourth : UInt8} (rest : List UInt8)
    (four : width first = 4) (follows : isSecond first second = true)
    (later : isContinuation third = true) (last : isContinuation fourth = true) :
    decode (first :: second :: third :: fourth :: rest) =
      char4 first second third fourth :: decode rest := by
  rw [decode.eq_def]
  simp only [four, follows, later, last, if_true]

/-- A character is read back from its bytes, whatever follows them. -/
theorem decode_encodeChar_append (c : Char) (rest : List UInt8) :
    decode (String.utf8EncodeChar c ++ rest) = c :: decode rest := by
  have valid := char_valid c
  have value : c.val.toNat = c.toNat := rfl
  unfold String.utf8EncodeChar
  simp only [value]
  split_ifs with one two three
  · have lead := toNat_byte (show c.toNat < 256 by omega)
    rw [List.cons_append, List.nil_append,
      decode_of_width_one rest (width_eq_one_iff.mpr (by omega)), lead, Char.ofNat_toNat]
  · have lead := toNat_byte (show c.toNat / 64 % 32 + 192 < 256 by omega)
    have last := toNat_byte (show c.toNat % 64 + 128 < 256 by omega)
    simp only [List.cons_append, List.nil_append]
    rw [decode_of_width_two rest (width_eq_two_iff.mpr (by omega))
      (isSecond_iff.mpr (by omega)), char2, payload, lead, last]
    rw [show (c.toNat / 64 % 32 + 192) % 32 * 64 + (c.toNat % 64 + 128) % 64 = c.toNat by omega,
      Char.ofNat_toNat]
  · have lead := toNat_byte (show c.toNat / 4096 % 16 + 224 < 256 by omega)
    have middle := toNat_byte (show c.toNat / 64 % 64 + 128 < 256 by omega)
    have last := toNat_byte (show c.toNat % 64 + 128 < 256 by omega)
    simp only [List.cons_append, List.nil_append]
    rw [decode_of_width_three rest (width_eq_three_iff.mpr (by omega))
      (isSecond_iff.mpr (by omega)) (isContinuation_iff.mpr (by omega)), char3, payload, payload,
      lead, middle, last]
    rw [show (c.toNat / 4096 % 16 + 224) % 16 * 4096 + (c.toNat / 64 % 64 + 128) % 64 * 64 +
      (c.toNat % 64 + 128) % 64 = c.toNat by omega, Char.ofNat_toNat]
  · have lead := toNat_byte (show c.toNat / 262144 % 8 + 240 < 256 by omega)
    have middle := toNat_byte (show c.toNat / 4096 % 64 + 128 < 256 by omega)
    have later := toNat_byte (show c.toNat / 64 % 64 + 128 < 256 by omega)
    have last := toNat_byte (show c.toNat % 64 + 128 < 256 by omega)
    simp only [List.cons_append, List.nil_append]
    rw [decode_of_width_four rest (width_eq_four_iff.mpr (by omega))
      (isSecond_iff.mpr (by omega)) (isContinuation_iff.mpr (by omega))
      (isContinuation_iff.mpr (by omega)), char4, payload, payload, payload, lead, middle, later,
      last]
    rw [show (c.toNat / 262144 % 8 + 240) % 8 * 262144 + (c.toNat / 4096 % 64 + 128) % 64 * 4096 +
      (c.toNat / 64 % 64 + 128) % 64 * 64 + (c.toNat % 64 + 128) % 64 = c.toNat by omega,
      Char.ofNat_toNat]

/-- An ASCII byte is the whole encoding of its character. -/
theorem encodeChar_of_width_one {first : UInt8} (one : width first = 1) :
    String.utf8EncodeChar (Char.ofNat first.toNat) = [first] := by
  have lead := width_eq_one_iff.mp one
  have value : (Char.ofNat first.toNat).val.toNat = first.toNat :=
    toNat_char (Or.inl (by omega))
  unfold String.utf8EncodeChar
  simp only [value, if_pos (show first.toNat ≤ 0x7F by omega), UInt8.ofNat_toNat]

/-- A character read from two bytes is written as those bytes. -/
theorem encodeChar_char2 {first second : UInt8} (two : width first = 2)
    (follows : isSecond first second = true) :
    String.utf8EncodeChar (char2 first second) = [first, second] := by
  have lead := width_eq_two_iff.mp two
  have last := isSecond_iff.mp follows
  have value : (char2 first second).val.toNat = first.toNat % 32 * 64 + second.toNat % 64 := by
    unfold char2 payload
    exact toNat_char (Or.inl (by omega))
  unfold String.utf8EncodeChar
  simp only [value]
  rw [if_neg (by omega), if_pos (by omega), byte_of_toNat first (by omega),
    byte_of_toNat second (by omega)]

/-- A character read from three bytes is written as those bytes: the narrowed second bytes keep
its number out of the surrogates and above U+07FF. -/
theorem encodeChar_char3 {first second third : UInt8} (three : width first = 3)
    (follows : isSecond first second = true) (last : isContinuation third = true) :
    String.utf8EncodeChar (char3 first second third) = [first, second, third] := by
  have lead := width_eq_three_iff.mp three
  have middle := isSecond_iff.mp follows
  have final := isContinuation_iff.mp last
  have value : (char3 first second third).val.toNat =
      first.toNat % 16 * 4096 + second.toNat % 64 * 64 + third.toNat % 64 := by
    unfold char3 payload
    exact toNat_char (by unfold Nat.isValidChar; omega)
  unfold String.utf8EncodeChar
  simp only [value]
  rw [if_neg (by omega), if_neg (by omega), if_pos (by omega), byte_of_toNat first (by omega),
    byte_of_toNat second (by omega), byte_of_toNat third (by omega)]

/-- A character read from four bytes is written as those bytes: the narrowed second bytes keep
its number above U+FFFF and up to U+10FFFF. -/
theorem encodeChar_char4 {first second third fourth : UInt8} (four : width first = 4)
    (follows : isSecond first second = true) (later : isContinuation third = true)
    (last : isContinuation fourth = true) :
    String.utf8EncodeChar (char4 first second third fourth) = [first, second, third, fourth] := by
  have lead := width_eq_four_iff.mp four
  have middle := isSecond_iff.mp follows
  have inner := isContinuation_iff.mp later
  have final := isContinuation_iff.mp last
  have value : (char4 first second third fourth).val.toNat =
      first.toNat % 8 * 262144 + second.toNat % 64 * 4096 + third.toNat % 64 * 64 +
        fourth.toNat % 64 := by
    unfold char4 payload
    exact toNat_char (Or.inr (by omega))
  unfold String.utf8EncodeChar
  simp only [value]
  rw [if_neg (by omega), if_neg (by omega), if_neg (by omega), byte_of_toNat first (by omega),
    byte_of_toNat second (by omega), byte_of_toNat third (by omega),
    byte_of_toNat fourth (by omega)]

/-- A text is read back from its bytes. -/
theorem decode_encode (text : List Char) : decode (encode text) = text := by
  induction text with
  | nil => simp [encode, decode]
  | cons c rest ih =>
    unfold encode at ih ⊢
    rw [List.flatMap_cons, decode_encodeChar_append, ih]

/-- Bytes read without a replacement character are the bytes of their reading. Reading takes a
character from one to four bytes, and puts a replacement character in front otherwise. -/
theorem encode_decode (bytes : List UInt8) (clean : replacement ∉ decode bytes) :
    encode (decode bytes) = bytes := by
  unfold encode
  fun_induction decode bytes with
  | case1 => rfl
  | case2 first rest one ih =>
    rw [List.mem_cons, not_or] at clean
    rw [List.flatMap_cons, encodeChar_of_width_one one, ih clean.2]
    rfl
  | case3 first two second rest follows ih =>
    rw [List.mem_cons, not_or] at clean
    rw [List.flatMap_cons, encodeChar_char2 two follows, ih clean.2]
    rfl
  | case6 first three second follows third rest last ih =>
    rw [List.mem_cons, not_or] at clean
    rw [List.flatMap_cons, encodeChar_char3 three follows last, ih clean.2]
    rfl
  | case11 first four second follows third later fourth rest last ih =>
    rw [List.mem_cons, not_or] at clean
    rw [List.flatMap_cons, encodeChar_char4 four follows later last, ih clean.2]
    rfl
  | _ => exact absurd List.mem_cons_self clean

/-- The byte of an ASCII character. -/
def byteOf (c : Char) : UInt8 := UInt8.ofNat c.toNat

/-- An ASCII character is one byte. -/
theorem encodeChar_of_ascii {c : Char} (ascii : c.toNat < 0x80) :
    String.utf8EncodeChar c = [byteOf c] := by
  have value : c.val.toNat = c.toNat := rfl
  unfold String.utf8EncodeChar
  simp only [value, if_pos (show c.toNat ≤ 0x7F by omega)]
  rfl

/-- A character beyond ASCII has no ASCII byte. -/
theorem high_of_mem_encodeChar {c : Char} (wide : ¬ c.toNat < 0x80) :
    ∀ byte ∈ String.utf8EncodeChar c, 0x80 ≤ byte.toNat := by
  have valid := char_valid c
  have value : c.val.toNat = c.toNat := rfl
  unfold String.utf8EncodeChar
  simp only [value, if_neg (show ¬ c.toNat ≤ 0x7F by omega)]
  split_ifs
  · simp only [List.forall_mem_cons, List.not_mem_nil, false_implies, implies_true, and_true]
    rw [toNat_byte (by omega), toNat_byte (by omega)]
    omega
  · simp only [List.forall_mem_cons, List.not_mem_nil, false_implies, implies_true, and_true]
    rw [toNat_byte (by omega), toNat_byte (by omega), toNat_byte (by omega)]
    omega
  · simp only [List.forall_mem_cons, List.not_mem_nil, false_implies, implies_true, and_true]
    rw [toNat_byte (by omega), toNat_byte (by omega), toNat_byte (by omega),
      toNat_byte (by omega)]
    omega

/-- The byte of an ASCII character occurs in the bytes of that character alone. -/
theorem eq_of_mem_encodeChar {a c : Char} (ascii : a.toNat < 0x80)
    (inside : byteOf a ∈ String.utf8EncodeChar c) : c = a := by
  have value : (byteOf a).toNat = a.toNat := toNat_byte (by omega)
  by_cases single : c.toNat < 0x80
  · rw [encodeChar_of_ascii single, List.mem_singleton] at inside
    have same := congrArg UInt8.toNat inside
    rw [value, byteOf, toNat_byte (by omega)] at same
    rw [← Char.ofNat_toNat c, ← same, Char.ofNat_toNat]
  · have high := high_of_mem_encodeChar single _ inside
    omega

/-- The bytes of the first character come first. -/
theorem encode_cons (c : Char) (text : List Char) :
    encode (c :: text) = String.utf8EncodeChar c ++ encode text := List.flatMap_cons

/-- The bytes of two texts in a row are those of the first and then those of the second. -/
theorem encode_append (front back : List Char) :
    encode (front ++ back) = encode front ++ encode back := List.flatMap_append

/-- Bytes that start with those of a character are the bytes of texts that start with it. -/
theorem encode_eq_append_iff {text : List Char} {c : Char} {rest : List UInt8} :
    encode text = String.utf8EncodeChar c ++ rest ↔
      ∃ back, text = c :: back ∧ rest = encode back := by
  constructor
  · intro same
    have read : text = c :: decode rest := by
      rw [← decode_encode text, same, decode_encodeChar_append]
    refine ⟨decode rest, read, ?_⟩
    rw [read, encode_cons] at same
    exact (List.append_cancel_left same).symm
  · rintro ⟨back, rfl, rfl⟩
    exact encode_cons c back

/-- Only the empty text has no bytes. -/
theorem encode_eq_nil_iff {text : List Char} : encode text = [] ↔ text = [] := by
  constructor
  · intro empty
    rw [← decode_encode text, empty, decode]
  · rintro rfl
    rfl

/-- UTF-8 is exact. -/
theorem utf8_exact : Exact decode (fun text => some (encode text)) :=
  Exact.of_total decode_encode encode_decode

end CfmlTidy.Encoding.Utf8
