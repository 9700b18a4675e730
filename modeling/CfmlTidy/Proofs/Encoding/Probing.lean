import Mathlib
import CfmlTidy.Proofs.Encoding.Detection

/-!
# What probing finds

The encoding of some bytes is looked for in two places, once alone and once together with the text,
and both come to the first candidate with a plausible reading. Two of the candidates are never
reached: UTF-16 with its byte order told is read as UTF-16 without, which is tried right before it,
and bytes that US-ASCII reads without replacement characters are read alike in UTF-8, which is tried
first of all.
-/

namespace CfmlTidy.Encoding

variable {bytes : List UInt8} {encoding : Encoding}

/-- The candidates that are tried before an encoding. -/
def triedBefore (encoding : Encoding) : List Encoding :=
  candidates.takeWhile (· != encoding)

/-- The first candidate with a plausible reading of some bytes. -/
structure FirstPlausible (bytes : List UInt8) (encoding : Encoding) : Prop where
  /-- It is a candidate. -/
  candidate : encoding ∈ candidates
  /-- Its reading is plausible. -/
  accepted : isPlausible (encoding.decode bytes) = true
  /-- No earlier candidate has a plausible reading. -/
  first : ∀ other ∈ triedBefore encoding, isPlausible (other.decode bytes) = false

/-- A search stops at an entry exactly when it is accepted and nothing in front of its first
occurrence is. What a search finds is accepted, so an entry that was passed over is never found
again. -/
theorem find?_eq_some_iff_takeWhile {accepts : Encoding → Bool} {others : List Encoding} :
    others.find? accepts = some encoding ↔
      encoding ∈ others ∧ accepts encoding = true ∧
        ∀ other ∈ others.takeWhile (· != encoding), accepts other = false := by
  induction others with
  | nil => simp
  | cons head rest ih =>
    rw [List.find?_cons]
    by_cases same : head = encoding
    · subst same
      cases accepted : accepts head with
      | true => simp
      | false =>
        have refused : rest.find? accepts ≠ some head := by
          intro found
          rw [List.find?_some found] at accepted
          contradiction
        simp [refused]
    · cases accepted : accepts head with
      | true => simp [same, accepted]
      | false => simp [same, accepted, ih, Ne.symm same]

/-- An encoding is found by probing exactly when there is no mark and it is the first candidate
with a plausible reading. -/
theorem detect_eq_probed_iff_first :
    detect bytes = .probed encoding ↔ ofMark? bytes = none ∧ FirstPlausible bytes encoding := by
  rw [detect_eq_probed_iff, find?_eq_some_iff_takeWhile]
  refine and_congr_right fun _ => ?_
  constructor
  · rintro ⟨candidate, accepted, refused⟩
    exact ⟨candidate, accepted, refused⟩
  · intro first
    exact ⟨first.candidate, first.accepted, first.first⟩

/-- No encoding is found exactly when there is no mark and no candidate has a plausible reading. -/
theorem detect_eq_fallback_iff :
    detect bytes = .fallback ↔
      ofMark? bytes = none ∧
        ∀ candidate ∈ candidates, isPlausible (candidate.decode bytes) = false := by
  unfold detect
  cases ofMark? bytes with
  | some found => simp
  | none =>
    cases search : candidates.find? fun encoding => isPlausible (encoding.decode bytes) with
    | none => simpa using search
    | some found =>
      have accepted : isPlausible (found.decode bytes) = true := by simpa using List.find?_some search
      have listed := List.mem_of_find?_eq_some search
      simp only [reduceCtorEq, true_and, false_iff, not_forall]
      exact ⟨found, listed, by simp [accepted]⟩

/-- Bytes that US-ASCII reads without replacement characters are read alike in UTF-8. -/
theorem decode_utf8_of_ascii (clean : replacement ∉ ascii.decode bytes) :
    utf8.decode bytes = ascii.decode bytes := by
  induction bytes with
  | nil => rw [decode, Utf8.decode]; rfl
  | cons byte rest ih =>
    have split : ascii.decode (byte :: rest) = SingleByte.asciiChar byte :: ascii.decode rest := rfl
    rw [split, List.mem_cons, not_or] at clean
    have small : byte < 0x80 := by
      by_contra high
      exact clean.1 (by rw [SingleByte.asciiChar, if_neg high])
    have single : Utf8.width byte = 1 :=
      Utf8.width_eq_one_iff.mpr (UInt8.lt_iff_toNat_lt.mp small)
    rw [split, ← ih clean.2, SingleByte.asciiChar, if_pos small]
    exact Utf8.decode_of_width_one rest single

/-- What UTF-16BE or US-ASCII read plausibly, a candidate that is tried before reads alike. -/
theorem exists_triedBefore (shadowed : encoding = utf16be ∨ encoding = ascii)
    (accepted : isPlausible (encoding.decode bytes) = true) :
    ∃ other ∈ triedBefore encoding, other.decode bytes = encoding.decode bytes := by
  rcases shadowed with rfl | rfl
  · exact ⟨utf16, by decide, rfl⟩
  · exact ⟨utf8, by decide, decode_utf8_of_ascii (replacement_not_mem_of_isPlausible accepted)⟩

/-- UTF-16 with most significant byte first, US-ASCII and UTF-32 are never the first candidate with
a plausible reading. -/
theorem FirstPlausible.not_shadowed (first : FirstPlausible bytes encoding) :
    encoding ∉ [utf16be, ascii, utf32be, utf32le] := by
  have reached (shadowed : encoding = utf16be ∨ encoding = ascii) : False := by
    obtain ⟨other, earlier, same⟩ := exists_triedBefore shadowed first.accepted
    have refused := first.first other earlier
    rw [same, first.accepted] at refused
    contradiction
  have candidate := first.candidate
  intro listed
  simp only [List.mem_cons, List.not_mem_nil, or_false] at listed
  rcases listed with rfl | rfl | rfl | rfl
  · exact reached (Or.inl rfl)
  · exact reached (Or.inr rfl)
  · exact absurd candidate (by decide)
  · exact absurd candidate (by decide)

/-- Reading bytes finds their encoding as it is found alone, whatever name is given for a fallback.
Without a mark, an encoding is found exactly when it is the first candidate with a plausible
reading, which is then the text; and none is found exactly when no candidate has one. What
UTF-16BE and US-ASCII read plausibly, an earlier candidate reads alike, so neither of them is ever
found, and UTF-32 is not looked for. -/
theorem decodeBytes_coherent (bytes : List UInt8) (fallback : String) :
    (decodeBytes bytes fallback).2 = detect bytes ∧
      (∀ encoding, detect bytes = .probed encoding ↔
        ofMark? bytes = none ∧ FirstPlausible bytes encoding) ∧
      (∀ encoding, detect bytes = .probed encoding →
        (decodeBytes bytes fallback).1 = encoding.decode bytes ∧
          encoding ∉ [utf16be, ascii, utf32be, utf32le]) ∧
      (detect bytes = .fallback ↔
        ofMark? bytes = none ∧
          ∀ candidate ∈ candidates, isPlausible (candidate.decode bytes) = false) ∧
      ∀ encoding, encoding = utf16be ∨ encoding = ascii →
        isPlausible (encoding.decode bytes) = true →
          ∃ other ∈ triedBefore encoding, other.decode bytes = encoding.decode bytes := by
  refine ⟨decodeBytes_detection bytes fallback, fun encoding => detect_eq_probed_iff_first,
    fun encoding found => ⟨?_, ?_⟩, detect_eq_fallback_iff, fun encoding => exists_triedBefore⟩
  · rw [decodeBytes_of_probed fallback found]
  · exact (detect_eq_probed_iff_first.mp found).2.not_shadowed

/-- An accented letter in front of two others is no UTF-8, and three bytes are no UTF-16, so it is
ISO-8859-1 that reads them; a lone letter is read alike in US-ASCII and in UTF-8. -/
theorem decodeBytes_coherent_accented :
    detect [0xE9, 0x61, 0x62] = .probed latin1 ∧
      (decodeBytes [0xE9, 0x61, 0x62] "US-ASCII").1 = ['\u00E9', 'a', 'b'] ∧
      isPlausible (ascii.decode [0x61]) = true ∧
      ∃ other ∈ triedBefore ascii, other.decode [0x61] = ['a'] := by
  have found : detect [0xE9, 0x61, 0x62] = .probed latin1 := by decide +kernel
  have accepted : isPlausible (ascii.decode [0x61]) = true := by decide +kernel
  refine ⟨found, ?_, accepted, ?_⟩
  · exact ((decodeBytes_coherent [0xE9, 0x61, 0x62] "US-ASCII").2.2.1 latin1 found).1
  · exact (decodeBytes_coherent [0x61] "US-ASCII").2.2.2.2 ascii (Or.inr rfl) accepted

end CfmlTidy.Encoding
