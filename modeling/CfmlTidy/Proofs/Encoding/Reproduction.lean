import Mathlib
import CfmlTidy.Proofs.Encoding.Detection

/-!
# Reproduction of bytes

Writing a text back as it was read returns the bytes it was read from, with one exception: a mark
is taken at its word, so bytes behind it that are no text of its encoding are read with
replacement characters and written back as those. `encode?_alters_iff` says that nothing else is
ever altered.
-/

namespace CfmlTidy.Encoding

/-- Bytes that some text is written as. -/
def WellFormed (encoding : Encoding) (bytes : List UInt8) : Prop :=
  ∃ text, encoding.encode? text = some bytes

/-- Well-formed bytes are those that their own reading is written as. -/
theorem wellFormed_iff {encoding : Encoding} {bytes : List UInt8} :
    encoding.WellFormed bytes ↔ encoding.encode? (encoding.decode bytes) = some bytes := by
  constructor
  · rintro ⟨text, written⟩
    rw [(encoding_exact encoding).lawful text bytes written, written]
  · intro written
    exact ⟨encoding.decode bytes, written⟩

/-- Whether bytes are well formed can be told by decoding and encoding them. -/
instance (encoding : Encoding) (bytes : List UInt8) : Decidable (encoding.WellFormed bytes) :=
  decidable_of_iff _ wellFormed_iff.symm

/-- What is written back for bytes behind a mark: the mark and what the reading of the rest is
written as. -/
theorem encode?_decodeBytes_of_marked {bytes : List UInt8} {encoding : Encoding}
    (fallback : String) (found : ofMark? bytes = some encoding) :
    (decodeBytes bytes fallback).2.encode? (decodeBytes bytes fallback).1 =
      (encoding.encode? (encoding.decode (bytes.drop encoding.mark.length))).map
        (encoding.mark ++ ·) := by
  rw [decodeBytes_of_marked fallback (detect_eq_marked_iff.mpr found)]
  rfl

/-- Bytes behind a mark are written back altered exactly when they are malformed. -/
theorem encode?_alters_marked_iff {bytes : List UInt8} {encoding : Encoding} (fallback : String)
    (found : ofMark? bytes = some encoding) :
    (∃ rewritten, (decodeBytes bytes fallback).2.encode? (decodeBytes bytes fallback).1 =
        some rewritten ∧ rewritten ≠ bytes) ↔
      ¬ encoding.WellFormed (bytes.drop encoding.mark.length) := by
  rw [encode?_decodeBytes_of_marked fallback found]
  have whole := mark_append_drop found
  constructor
  · rintro ⟨rewritten, written, altered⟩ formed
    rw [wellFormed_iff.mp formed, Option.map_some, whole] at written
    exact altered (Option.some.inj written).symm
  · intro malformed
    obtain ⟨payload, written⟩ :=
      encode?_of_marked found (encoding.decode (bytes.drop encoding.mark.length))
    refine ⟨encoding.mark ++ payload, by rw [written, Option.map_some], ?_⟩
    intro same
    have kept : payload = bytes.drop encoding.mark.length := by
      rw [← whole] at same
      simpa using same
    exact malformed ⟨_, kept ▸ written⟩

/-- Writing a reading back gives other bytes exactly for a file that starts with a mark and whose
further bytes are no text of the marked encoding. Every other reading is written back as its
bytes or not at all. -/
theorem encode?_alters_iff (bytes : List UInt8) (fallback : String) :
    (∃ rewritten, (decodeBytes bytes fallback).2.encode? (decodeBytes bytes fallback).1 =
        some rewritten ∧ rewritten ≠ bytes) ↔
      ∃ encoding, ofMark? bytes = some encoding ∧
        ¬ encoding.WellFormed (bytes.drop encoding.mark.length) := by
  cases detection : detect bytes with
  | marked encoding =>
    have found := detect_eq_marked_iff.mp detection
    rw [encode?_alters_marked_iff fallback found]
    simp only [found, Option.some.injEq, exists_eq_left']
  | probed encoding =>
    have unmarked := (detect_eq_probed_iff.mp detection).1
    rw [decodeBytes_of_probed fallback detection]
    simp only [Detection.encode?, encode?_decode_of_probed detection, unmarked, Option.some.injEq,
      reduceCtorEq, false_and, exists_false, iff_false, not_exists, not_and, not_not]
    intro rewritten same
    exact same.symm
  | fallback =>
    have unmarked : ∀ encoding, ofMark? bytes ≠ some encoding := by
      intro encoding found
      rw [detect_eq_marked_iff.mpr found] at detection
      contradiction
    rw [decodeBytes_eq, detection]
    simp [Detection.encode?, unmarked]

/-- A lone byte behind the mark of UTF-16LE is written back as a replacement character. -/
theorem encode?_alters_lone_byte :
    ¬ ∀ bytes fallback rewritten,
      (decodeBytes bytes fallback).2.encode? (decodeBytes bytes fallback).1 = some rewritten →
        rewritten = bytes := by
  intro faithful
  have altered := faithful [0xFF, 0xFE, 0x41] "UTF-8" [0xFF, 0xFE, 0xFD, 0xFF] (by decide +kernel)
  exact absurd altered (by decide)

end CfmlTidy.Encoding
