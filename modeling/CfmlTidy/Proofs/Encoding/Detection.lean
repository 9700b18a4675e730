import Mathlib
import CfmlTidy.Encoding.Detection
import CfmlTidy.Proofs.Encoding.RoundTrip

/-!
# How bytes are read

The reading of bytes follows how their encoding is found: `decodeBytes_eq` takes it apart into a
marked, a probed and a fallback reading. Beside it stand the facts that each way of finding an
encoding brings along: a mark starts the bytes, and a probed reading is plausible, so that its
bytes can be written back.
-/

namespace CfmlTidy.Encoding

/-- Probing finds the first candidate with a plausible reading. -/
theorem probe?_eq (bytes : List UInt8) (others : List Encoding) :
    probe? bytes others =
      (others.find? fun encoding => isPlausible (encoding.decode bytes)).map
        fun encoding => (encoding.decode bytes, encoding) := by
  induction others with
  | nil => rfl
  | cons encoding rest ih =>
    rw [probe?, List.find?_cons]
    by_cases accepted : isPlausible (encoding.decode bytes) = true
    · rw [if_pos accepted, accepted]
      rfl
    · rw [if_neg accepted, ih, Bool.eq_false_iff.mpr accepted]

/-- An encoding is found by its mark exactly when the bytes start with one. -/
theorem detect_eq_marked_iff {bytes : List UInt8} {encoding : Encoding} :
    detect bytes = .marked encoding ↔ ofMark? bytes = some encoding := by
  unfold detect
  cases ofMark? bytes with
  | some found => simp
  | none => cases candidates.find? fun encoding => isPlausible (encoding.decode bytes) <;> simp

/-- An encoding is found by probing exactly when there is no mark and it is the first candidate
with a plausible reading. -/
theorem detect_eq_probed_iff {bytes : List UInt8} {encoding : Encoding} :
    detect bytes = .probed encoding ↔
      ofMark? bytes = none ∧
        candidates.find? (fun encoding => isPlausible (encoding.decode bytes)) = some encoding := by
  unfold detect
  cases ofMark? bytes with
  | some found => simp
  | none => cases candidates.find? fun encoding => isPlausible (encoding.decode bytes) <;> simp

/-- The text of some bytes is read as their encoding was found. No bytes are read as UTF-8 before
any mark is looked for, and probing would do the same. -/
theorem decodeBytes_eq (bytes : List UInt8) (fallback : String) :
    decodeBytes bytes fallback =
      match detect bytes with
      | .marked encoding =>
        (encoding.decode (bytes.drop encoding.mark.length), .marked encoding)
      | .probed encoding => (encoding.decode bytes, .probed encoding)
      | .fallback => (((ofName? fallback).getD utf8).decode bytes, .fallback) := by
  by_cases empty : bytes = []
  · subst empty
    have accepted : isPlausible (utf8.decode []) = true := by simp [decode, Utf8.decode, isPlausible]
    have found : detect [] = .probed utf8 := by
      rw [detect_eq_probed_iff]
      exact ⟨rfl, by rw [candidates, List.find?_cons, accepted]⟩
    rw [found]
    simp [decodeBytes, decode, Utf8.decode]
  · have filled : ¬ bytes.isEmpty = true := by simpa using empty
    rw [decodeBytes, if_neg filled, detect]
    cases ofMark? bytes with
    | some encoding => rfl
    | none =>
      simp only [probe?_eq]
      cases candidates.find? fun encoding => isPlausible (encoding.decode bytes) <;> rfl

/-- The way a text was read is the way its encoding is found. -/
theorem decodeBytes_detection (bytes : List UInt8) (fallback : String) :
    (decodeBytes bytes fallback).2 = detect bytes := by
  rw [decodeBytes_eq]
  cases detect bytes <;> rfl

/-- The reading of bytes that start with a mark. -/
theorem decodeBytes_of_marked {bytes : List UInt8} {encoding : Encoding} (fallback : String)
    (found : detect bytes = .marked encoding) :
    decodeBytes bytes fallback =
      (encoding.decode (bytes.drop encoding.mark.length), .marked encoding) := by
  rw [decodeBytes_eq, found]

/-- The reading of bytes whose encoding is found by probing. -/
theorem decodeBytes_of_probed {bytes : List UInt8} {encoding : Encoding} (fallback : String)
    (found : detect bytes = .probed encoding) :
    decodeBytes bytes fallback = (encoding.decode bytes, .probed encoding) := by
  rw [decodeBytes_eq, found]

/-- A mark starts the bytes that it was found in. -/
theorem mark_append_drop {bytes : List UInt8} {encoding : Encoding}
    (found : ofMark? bytes = some encoding) :
    encoding.mark ++ bytes.drop encoding.mark.length = bytes := by
  unfold ofMark? at found
  have starts := List.find?_some found
  obtain ⟨payload, rfl⟩ := List.isPrefixOf_iff_prefix.mp starts
  rw [List.drop_left]

/-- The encodings with a mark of their own hold every text. -/
theorem encode?_of_marked {bytes : List UInt8} {encoding : Encoding}
    (found : ofMark? bytes = some encoding) (text : List Char) :
    ∃ written, encoding.encode? text = some written := by
  have listed : encoding ∈ marked := List.mem_of_find?_eq_some found
  simp only [marked, List.mem_cons, List.not_mem_nil, or_false] at listed
  rcases listed with rfl | rfl | rfl | rfl | rfl <;> exact ⟨_, rfl⟩

/-- A plausible text has no replacement character. -/
theorem replacement_not_mem_of_isPlausible {text : List Char} (accepted : isPlausible text = true) :
    replacement ∉ text := by
  simp only [isPlausible, Bool.and_eq_true, Bool.not_eq_true', List.contains_eq_mem,
    decide_eq_false_iff_not] at accepted
  exact accepted.1

/-- The reading that probing settles on is plausible. -/
theorem isPlausible_of_probed {bytes : List UInt8} {encoding : Encoding}
    (found : detect bytes = .probed encoding) : isPlausible (encoding.decode bytes) = true := by
  have accepted := List.find?_some (detect_eq_probed_iff.mp found).2
  exact accepted

/-- A probed reading is written back as the bytes it was read from. -/
theorem encode?_decode_of_probed {bytes : List UInt8} {encoding : Encoding}
    (found : detect bytes = .probed encoding) :
    encoding.encode? (encoding.decode bytes) = some bytes :=
  (encoding_exact encoding).canonical bytes
    (replacement_not_mem_of_isPlausible (isPlausible_of_probed found))

/-- Bytes are written back for no other text than the one that is read from them. Behind a mark
bytes may be malformed, but not when they were written for a text. -/
theorem decodeBytes_of_encode? {bytes : List UInt8} {text : List Char} (fallback : String)
    (written : (detect bytes).encode? text = some bytes) :
    (decodeBytes bytes fallback).1 = text := by
  cases found : detect bytes with
  | fallback =>
    rw [found] at written
    contradiction
  | marked encoding =>
    rw [found] at written
    obtain ⟨payload, encoded, whole⟩ := Option.map_eq_some_iff.mp written
    have rest : bytes.drop encoding.mark.length = payload := by rw [← whole, List.drop_left]
    rw [decodeBytes_of_marked fallback found, rest]
    exact (encoding_exact encoding).lawful _ _ encoded
  | probed encoding =>
    rw [found] at written
    rw [decodeBytes_of_probed fallback found]
    exact (encoding_exact encoding).lawful _ _ written

end CfmlTidy.Encoding

/-- What is written back was not read with the fallback. -/
theorem CfmlTidy.Detection.ne_fallback_of_encode? {detection : Detection} {text : List Char}
    {bytes : List UInt8} (written : detection.encode? text = some bytes) :
    detection ≠ .fallback := by
  rintro rfl
  contradiction
