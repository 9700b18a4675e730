import Mathlib
import CfmlTidy.Proofs.Encoding.Rewriting

/-!
# Texts behind a mark

A text that is written behind the mark of its encoding is found by that mark and read back, whatever
name is given for a fallback. Marks are tried in an order, and one of them continues another: the
mark of UTF-32LE is the mark of UTF-16LE and two zeros. So what follows a mark matters only in
UTF-16LE, and there only when it starts with the unit of U+0000. Such a text is taken for UTF-32LE.
-/

namespace CfmlTidy.Encoding

/-- What is found behind a mark: its own encoding, except that two zeros turn the mark of UTF-16LE
into the mark of UTF-32LE. -/
theorem ofMark?_mark_append {encoding : Encoding} (own : encoding ∈ marked)
    (payload : List UInt8) :
    ofMark? (encoding.mark ++ payload) =
      if encoding = utf16le ∧ [0, 0] <+: payload then some utf32le else some encoding := by
  simp only [marked, List.mem_cons, List.not_mem_nil, or_false] at own
  rcases own with rfl | rfl | rfl | rfl | rfl
  · rfl
  · rfl
  · rfl
  · rfl
  · simpa using ofMark?_little payload

/-- The bytes of a character in UTF-16 start with two zeros only for U+0000: the first of a pair of
surrogates is no zero. -/
theorem unitsOf_zero_iff (c : Char) (rest : List UInt8) :
    [0, 0] <+: (Utf16.unitsOf c).flatMap (Utf16.unitBytes .little) ++ rest ↔ c = '\x00' := by
  constructor
  · rintro ⟨more, starts⟩
    have value : Utf16.units .little ([0, 0] ++ more) = 0 :: Utf16.units .little more := rfl
    have valid := char_valid c
    unfold Utf16.unitsOf at starts
    split_ifs at starts with plain
    · rw [List.flatMap_singleton] at starts
      rw [starts, Utf16.units_unitBytes_append .little plain, List.cons.injEq] at value
      rw [← Char.ofNat_toNat c, value.1]
    · rw [List.flatMap_cons, List.append_assoc] at starts
      rw [starts, Utf16.units_unitBytes_append .little (by omega), List.cons.injEq] at value
      exact absurd value.1 (by omega)
  · rintro rfl
    exact ⟨rest, rfl⟩

/-- The bytes of a text in UTF-16LE start with two zeros exactly when the text starts with
U+0000. -/
theorem zeros_prefix_iff (text : List Char) :
    [0, 0] <+: Utf16.encode .little text ↔ text.head? = some '\x00' := by
  cases text with
  | nil => simp [Utf16.encode]
  | cons c rest =>
    rw [Utf16.encode, List.flatMap_cons, unitsOf_zero_iff, List.head?_cons, Option.some.injEq]

/-- A text that starts with U+0000, written in UTF-16LE behind its mark: the only one among texts
behind marks that is taken for another encoding. -/
def Mistaken (encoding : Encoding) (text : List Char) : Prop :=
  encoding = utf16le ∧ text.head? = some '\x00'

/-- Behind the mark of one of the five encodings that are found by their mark, every text can be
written. Its bytes are read back as the text, and found by the mark, exactly when the text is not
mistaken; a mistaken text is found as UTF-32LE and read as what follows its first character. -/
theorem decodeBytes_marked {encoding : Encoding} (own : encoding ∈ marked) (text : List Char) :
    ∃ bytes, (Detection.marked encoding).encode? text = some bytes ∧
      (∀ fallback, decodeBytes bytes fallback = (text, .marked encoding) ↔
        ¬ Mistaken encoding text) ∧
      (Mistaken encoding text → detect bytes = .marked utf32le ∧
        ∀ fallback, decodeBytes bytes fallback =
          (Utf32.decode .little (Utf16.encode .little text.tail), .marked utf32le)) := by
  have announced := ofMark?_mark_append own
  obtain ⟨payload, written⟩ : ∃ payload, encoding.encode? text = some payload := by
    have alone := announced []
    rw [if_neg (by simp)] at alone
    exact encode?_of_marked alone text
  have mistaken : encoding = utf16le ∧ [0, 0] <+: payload ↔ Mistaken encoding text := by
    refine and_congr_right fun little => ?_
    rw [little] at written
    obtain rfl := Option.some.inj written
    exact zeros_prefix_iff text
  have found := announced payload
  refine ⟨encoding.mark ++ payload, by rw [Detection.encode?, written]; rfl, fun fallback => ?_, ?_⟩
  · by_cases other : Mistaken encoding text
    · rw [if_pos (mistaken.mpr other)] at found
      have differs : encoding ≠ utf32le := by
        rw [other.1]
        decide
      rw [decodeBytes_of_marked fallback (detect_eq_marked_iff.mpr found)]
      simp [other, differs.symm]
    · rw [if_neg (mistaken.not.mpr other)] at found
      rw [decodeBytes_of_marked fallback (detect_eq_marked_iff.mpr found), List.drop_left,
        (encoding_exact encoding).lawful _ _ written]
      simp [other]
  · intro other
    rw [if_pos (mistaken.mpr other)] at found
    have detected := detect_eq_marked_iff.mpr found
    refine ⟨detected, fun fallback => ?_⟩
    obtain ⟨rfl, starts⟩ := other
    obtain ⟨rest, rfl⟩ := List.head?_eq_some_iff.mp starts
    obtain rfl := Option.some.inj written
    rw [decodeBytes_of_marked fallback detected]
    rfl

/-- Behind the mark of UTF-16LE, U+0000 counts at the start of a text and nowhere else. -/
theorem decodeBytes_marked_zero :
    utf16le ∈ marked ∧ ¬ Mistaken utf16le ['a', '\x00'] ∧ Mistaken utf16le ['\x00', 'a'] ∧
      decodeBytes [0xFF, 0xFE, 0x61, 0x00, 0x00, 0x00] "latin1" =
        (['a', '\x00'], .marked utf16le) ∧
      decodeBytes [0xFF, 0xFE, 0x00, 0x00, 0x61, 0x00] "latin1" =
        ([replacement], .marked utf32le) := by
  have own : utf16le ∈ marked := by decide
  have kept : ¬ Mistaken utf16le ['a', '\x00'] := by simp [Mistaken]
  have lost : Mistaken utf16le ['\x00', 'a'] := ⟨rfl, rfl⟩
  obtain ⟨bytes, written, reads, -⟩ := decodeBytes_marked own ['a', '\x00']
  obtain ⟨bytes', written', -, mistaken⟩ := decodeBytes_marked own ['\x00', 'a']
  obtain rfl := Option.some.inj written
  obtain rfl := Option.some.inj written'
  exact ⟨own, kept, lost, (reads "latin1").mpr kept, (mistaken lost).2 "latin1"⟩

end CfmlTidy.Encoding
