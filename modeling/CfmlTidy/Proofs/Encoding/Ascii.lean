import Mathlib
import CfmlTidy.Proofs.Encoding.Utf8
import CfmlTidy.Text.Lines

/-!
# ASCII words in the bytes of a text

The bytes of a text are cut where the text is cut, and a word of ASCII characters stands in them
where it stands in the text: no character beyond ASCII has an ASCII byte.
-/

namespace CfmlTidy.Encoding.Utf8

open CfmlTidy.Text (byteLength)

variable {word : List Char}

/-- A word of ASCII characters. -/
abbrev IsAscii (word : List Char) : Prop := ∀ c ∈ word, c.toNat < 0x80

/-- ASCII characters are told apart by their bytes. -/
theorem byteOf_inj {a c : Char} (first : a.toNat < 0x80) (second : c.toNat < 0x80) :
    byteOf a = byteOf c ↔ a = c := by
  constructor
  · intro bytes
    apply eq_of_mem_encodeChar second
    rw [encodeChar_of_ascii first, bytes]
    exact List.mem_singleton_self _
  · rintro rfl
    rfl

/-- A character has no byte of another character that is ASCII. -/
theorem count_encodeChar {a c : Char} (ascii : a.toNat < 0x80) (differs : c ≠ a) :
    (String.utf8EncodeChar c).count (byteOf a) = 0 := by
  rw [List.count_eq_zero]
  exact fun inside => differs (eq_of_mem_encodeChar ascii inside)

/-- An ASCII character is as often in a text as its byte is in the bytes of the text. -/
theorem count_encode {a : Char} (ascii : a.toNat < 0x80) (text : List Char) :
    (encode text).count (byteOf a) = text.count a := by
  induction text with
  | nil => rfl
  | cons c rest ih =>
    rw [encode_cons, List.count_append, ih]
    by_cases same : c = a
    · rw [same, encodeChar_of_ascii ascii, List.count_singleton_self, List.count_cons_self,
        Nat.add_comm]
    · rw [count_encodeChar ascii same, List.count_cons_of_ne same, Nat.zero_add]

/-- A text has as many bytes in UTF-8 as its characters take. -/
theorem length_encode (text : List Char) : (encode text).length = byteLength text := by
  induction text with
  | nil => rfl
  | cons c rest ih =>
    rw [encode_cons, List.length_append, String.length_utf8EncodeChar, ih, byteLength]

/-- The bytes of the front of a text stand in front. -/
theorem take_encode (front back : List Char) :
    (encode (front ++ back)).take (byteLength front) = encode front := by
  rw [encode_append, ← length_encode, List.take_left]

/-- Behind the bytes of the front of a text stand those of the rest. -/
theorem drop_encode (front back : List Char) :
    (encode (front ++ back)).drop (byteLength front) = encode back := by
  rw [encode_append, ← length_encode, List.drop_left]

/-- ASCII characters are one byte each. -/
theorem byteLength_of_isAscii (ascii : IsAscii word) : byteLength word = word.length := by
  induction word with
  | nil => rfl
  | cons a rest ih =>
    obtain ⟨first, others⟩ := List.forall_mem_cons.mp ascii
    have single := congrArg List.length (encodeChar_of_ascii first)
    rw [String.length_utf8EncodeChar, List.length_singleton] at single
    rw [byteLength, single, ih others, List.length_cons, Nat.add_comm]

/-- Bytes start with an ASCII character exactly when the text does. -/
theorem head?_encode_iff {a : Char} (ascii : a.toNat < 0x80) (text : List Char) :
    (encode text).head? = some (byteOf a) ↔ text.head? = some a := by
  cases text with
  | nil => simp [encode]
  | cons c rest =>
    rw [List.head?_cons, Option.some.injEq]
    constructor
    · intro first
      have inside : byteOf a ∈ String.utf8EncodeChar c := by
        rw [encode_cons, List.head?_append_of_ne_nil] at first
        · exact List.mem_of_mem_head? first
        · exact String.utf8EncodeChar_ne_nil
      exact eq_of_mem_encodeChar ascii inside
    · rintro rfl
      rw [encode_cons, encodeChar_of_ascii ascii]
      rfl

/-- Where the byte of an ASCII character stands in the bytes of a text, the character stands in the
text. Otherwise the byte would be one of another character, which has none below 0x80. -/
theorem encode_eq_append_cons_iff {a : Char} (ascii : a.toNat < 0x80) {text : List Char}
    {front rest : List UInt8} :
    encode text = front ++ byteOf a :: rest ↔
      ∃ before after, text = before ++ a :: after ∧ front = encode before ∧ rest = encode after := by
  constructor
  · intro whole
    induction text generalizing front with
    | nil => simp [encode] at whole
    | cons c text ih =>
      rw [encode_cons] at whole
      have within (shorter : List UInt8) (longer : front = String.utf8EncodeChar c ++ shorter)
          (later : encode text = shorter ++ byteOf a :: rest) :
          ∃ before after, c :: text = before ++ a :: after ∧ front = encode before ∧
            rest = encode after := by
        obtain ⟨before, after, rfl, rfl, behind⟩ := ih later
        exact ⟨c :: before, after, rfl, longer, behind⟩
      rcases List.append_eq_append_iff.mp whole with
        ⟨shorter, longer, later⟩ | ⟨piece, bytes, split⟩
      · exact within shorter longer later
      · cases piece with
        | nil =>
          refine within [] ?_ split.symm
          rw [bytes, List.append_nil, List.append_nil]
        | cons byte piece =>
          obtain ⟨rfl, behind⟩ := List.cons.inj split
          have inside : byteOf a ∈ String.utf8EncodeChar c := by
            rw [bytes]
            exact List.mem_append_right front List.mem_cons_self
          obtain rfl := eq_of_mem_encodeChar ascii inside
          rw [encodeChar_of_ascii ascii] at bytes
          rcases List.cons_eq_append_iff.mp bytes with ⟨rfl, alone⟩ | ⟨more, rfl, none⟩
          · obtain rfl := (List.cons.inj alone).2
            exact ⟨[], text, rfl, rfl, behind⟩
          · simp at none
  · rintro ⟨before, after, rfl, rfl, rfl⟩
    rw [encode_append, encode_cons, encodeChar_of_ascii ascii]
    rfl

/-- A word of ASCII characters stands at the start of the bytes exactly when it stands at the start
of the text. At a character of the text that is not the one of the word, the first bytes differ. -/
theorem isPrefixOf_encode (ascii : IsAscii word) (text : List Char) :
    (encode word).isPrefixOf (encode text) = word.isPrefixOf text := by
  induction word generalizing text with
  | nil => rfl
  | cons a word ih =>
    obtain ⟨first, others⟩ := List.forall_mem_cons.mp ascii
    rw [encode_cons, encodeChar_of_ascii first]
    cases text with
    | nil => rfl
    | cons c rest =>
      by_cases same : a = c
      · subst same
        rw [encode_cons, encodeChar_of_ascii first]
        simp [List.isPrefixOf, ih others]
      · obtain ⟨byte, more, bytes⟩ := List.exists_cons_of_ne_nil (@String.utf8EncodeChar_ne_nil c)
        have apart : (byteOf a == byte) = false := by
          rw [beq_eq_false_iff_ne]
          rintro rfl
          exact same (eq_of_mem_encodeChar first (by rw [bytes]; simp)).symm
        have differs : (a == c) = false := beq_eq_false_iff_ne.mpr same
        rw [encode_cons, bytes]
        simp only [List.cons_append, List.isPrefixOf, apart, differs, Bool.false_and]

/-- Where bytes beyond ASCII stand, no word of ASCII characters does. -/
theorem not_isPrefixOf_high (ascii : IsAscii word) (filled : word ≠ []) {byte : UInt8}
    (high : 0x80 ≤ byte.toNat) (rest : List UInt8) :
    ¬ (encode word).isPrefixOf (byte :: rest) = true := by
  obtain ⟨a, more, rfl⟩ := List.exists_cons_of_ne_nil filled
  have small := ascii a List.mem_cons_self
  have apart : byteOf a ≠ byte := by
    rintro rfl
    rw [byteOf, toNat_byte (by omega)] at high
    omega
  rw [encode_cons, encodeChar_of_ascii small]
  simp [List.isPrefixOf, apart]

end CfmlTidy.Encoding.Utf8
