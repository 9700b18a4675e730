import Mathlib
import CfmlTidy.Proofs.Text.Offset
import CfmlTidy.Text.Letter

/-!
# Texts in lower case

A text and its copy in lower case have their characters at the same byte offsets, because only ASCII
letters change and become ASCII letters. Words without letters stand in the copy where they stand in
the text.
-/

namespace CfmlTidy.Text

/-- A capital is an ASCII letter, and its lower case comes 32 places behind it. -/
theorem toNat_lower {c : Char} (capital : 'A' ≤ c ∧ c ≤ 'Z') :
    65 ≤ c.toNat ∧ c.toNat ≤ 90 ∧ (lower c).toNat = c.toNat + 32 := by
  have low : 65 ≤ c.toNat := capital.1
  have high : c.toNat ≤ 90 := capital.2
  rw [lower, if_pos capital]
  exact ⟨low, high, Encoding.toNat_char (Or.inl (by omega))⟩

/-- The lower case of a character takes as many bytes as the character. -/
theorem utf8Size_lower (c : Char) : (lower c).utf8Size = c.utf8Size := by
  by_cases capital : 'A' ≤ c ∧ c ≤ 'Z'
  · obtain ⟨low, high, value⟩ := toNat_lower capital
    rw [utf8Size_of_ascii (by omega), utf8Size_of_ascii (by omega)]
  · rw [lower, if_neg capital]

/-- A text has as many bytes in lower case. -/
theorem byteLength_lowered (text : List Char) : byteLength (text.map lower) = byteLength text := by
  induction text with
  | nil => rfl
  | cons c rest ih => rw [List.map_cons, byteLength, ih, utf8Size_lower, byteLength]

/-- What is read from a text is read in lower case from its copy. -/
theorem ReadsAt.lowered {text rest : List Char} {offset : Nat} (reads : ReadsAt text offset rest) :
    ReadsAt (text.map lower) offset (rest.map lower) := by
  obtain ⟨front, rfl, rfl⟩ := reads
  exact ⟨front.map lower, List.map_append, byteLength_lowered front⟩

/-- Only the character itself has a character that is no letter for its lower case. -/
theorem lower_eq_iff {a c : Char} (noCapital : ¬ ('A' ≤ a ∧ a ≤ 'Z'))
    (noSmall : ¬ ('a' ≤ a ∧ a ≤ 'z')) : lower c = a ↔ c = a := by
  by_cases capital : 'A' ≤ c ∧ c ≤ 'Z'
  · obtain ⟨low, high, value⟩ := toNat_lower capital
    constructor
    · rintro rfl
      refine absurd ⟨?_, ?_⟩ noSmall
      · change 97 ≤ (lower c).toNat
        omega
      · change (lower c).toNat ≤ 122
        omega
    · rintro rfl
      exact absurd capital noCapital
  · rw [lower, if_neg capital]

end CfmlTidy.Text
