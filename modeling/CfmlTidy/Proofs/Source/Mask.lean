import Mathlib
import CfmlTidy.Proofs.Parse.Masking

/-!
# What a mask shows

A mask covers its source: each character of the source is either shown, or it is no newline and as
many spaces stand for it as it has bytes. So whatever a mask has besides spaces is read at the same
byte of the source, and the bytes of both differ only where the mask has a space. The proof that a
mask covers its source follows the regions of the mask.
-/

namespace CfmlTidy.Source

open CfmlTidy.Encoding
open CfmlTidy.Text (ReadsAt VisibleAt byteLength byteLength_append)

/-- A text that covers another one: characters other than newlines may be hidden, each behind as
many spaces as it has bytes. -/
inductive Covers : (masked text : List Char) → Prop where
  /-- Nothing covers nothing. -/
  | done : Covers [] []
  /-- A character that is shown. -/
  | shown {masked text : List Char} (c : Char) (more : Covers masked text) :
    Covers (c :: masked) (c :: text)
  /-- A character that is hidden. -/
  | hidden {masked text : List Char} {c : Char} (sameLine : c ≠ '\n') (more : Covers masked text) :
    Covers (List.replicate c.utf8Size ' ' ++ masked) (c :: text)

/-- A byte that covers another one: the same byte, or a space for a byte that is no newline. -/
def CoversByte (masked byte : UInt8) : Prop :=
  masked = byte ∨ masked = Utf8.byteOf ' ' ∧ byte ≠ Utf8.byteOf '\n'

namespace Covers

variable {masked text : List Char}

/-- A character that is blanked out is covered. -/
theorem blankChar (c : Char) (covers : Covers masked text) :
    Covers (blanked c ++ masked) (c :: text) := by
  unfold blanked
  split_ifs with newline
  · rw [newline]
    exact covers.shown '\n'
  · exact covers.hidden newline

/-- Blanks cover the text that they stand for. -/
theorem blank (behind : List Char) (covers : Covers masked text) :
    Covers (blanks behind ++ masked) (behind ++ text) := by
  induction behind with
  | nil => exact covers
  | cons c rest ih =>
    rw [blanks_cons, List.append_assoc, List.cons_append]
    exact ih.blankChar c

/-- Where a covering text has something besides spaces, the text has it as well, and what is covered
behind it is what the text has behind it. -/
theorem coversAt (covers : Covers masked text) {offset : Nat} {c : Char} {rest : List Char}
    (reads : ReadsAt masked offset (c :: rest)) (noSpace : c ≠ ' ') :
    ∃ later, ReadsAt text offset (c :: later) ∧ Covers rest later := by
  induction covers generalizing offset with
  | done =>
    obtain ⟨front, split, -⟩ := reads
    simp at split
  | @shown masked text first more ih =>
    obtain ⟨front, split, length⟩ := reads
    cases front with
    | nil =>
      obtain ⟨rfl, rfl⟩ := List.cons.inj split
      exact ⟨text, ⟨[], rfl, length⟩, more⟩
    | cons head others =>
      obtain ⟨rfl, within⟩ := List.cons.inj split
      obtain ⟨later, there, behind⟩ := ih ⟨others, within, rfl⟩
      rw [← length]
      exact ⟨later, there.prepend [first], behind⟩
  | @hidden masked text behind sameLine more ih =>
    rcases reads.append_cases with ⟨later, front, split, -⟩ | ⟨inner, rfl, reads'⟩
    · have inside : c ∈ List.replicate behind.utf8Size ' ' := by rw [split]; simp
      exact absurd (List.eq_of_mem_replicate inside) noSpace
    · obtain ⟨later, there, others⟩ := ih reads'
      rw [byteLength_spaces]
      exact ⟨later, there.prepend [behind], others⟩

/-- What a covering text has besides spaces is in the text, at the same byte. -/
theorem readsAt (covers : Covers masked text) {offset : Nat} {c : Char} {rest : List Char}
    (reads : ReadsAt masked offset (c :: rest)) (noSpace : c ≠ ' ') :
    ∃ later, ReadsAt text offset (c :: later) := by
  obtain ⟨later, there, -⟩ := covers.coversAt reads noSpace
  exact ⟨later, there⟩

/-- A covering text has no characters besides spaces that the text does not have. -/
theorem mem (covers : Covers masked text) {c : Char} (inside : c ∈ masked) (noSpace : c ≠ ' ') :
    c ∈ text := by
  obtain ⟨front, back, whole⟩ := List.append_of_mem inside
  obtain ⟨later, front', rfl, -⟩ := covers.readsAt ⟨front, whole, rfl⟩ noSpace
  simp

/-- A covering text has as many bytes as the text. -/
theorem byteLength_eq (covers : Covers masked text) : byteLength masked = byteLength text := by
  induction covers with
  | done => rfl
  | shown c _ ih => rw [byteLength, byteLength, ih]
  | hidden _ _ ih => rw [byteLength_append, byteLength_spaces, ih, byteLength]

end Covers

/-- Masking from any region on covers the text. -/
theorem covers_maskFrom (region : Region) (text : List Char) :
    Covers (maskFrom region text) text := by
  fun_induction maskFrom region text with
  | case1 => exact .done
  | case2 rest ih => exact ih.blank ['/', '/']
  | case3 rest ih => exact ih.blank ['/', '*']
  | case4 rest ih => exact ih.blank ['<', '!', '-', '-', '-']
  | case5 c rest _ _ _ ih => exact ih.shown c
  | case6 c rest ih => exact ih.blankChar c
  | case7 rest ih => exact ih.blank ['*', '/']
  | case8 c rest _ ih => exact ih.blankChar c
  | case9 rest ih => exact ih.blank ['-', '-', '-', '>']
  | case10 c rest _ ih => exact ih.blankChar c
  | case11 c => exact Covers.done.shown c
  | case12 quote c _ =>
    have ended := Covers.done.blankChar c
    rwa [List.append_nil] at ended
  | case13 quote next rest ih => exact ih.shown '\n'
  | case14 quote rest _ ih =>
    rw [List.append_assoc]
    exact (ih.blankChar quote).blankChar quote
  | case15 c next rest _ _ ih => exact ih.shown c
  | case16 quote c next rest _ _ ih => exact ih.blankChar c

/-- A character of a mask that is not blank stands at the same byte of its source. -/
theorem visibleAt_of_mask {text : List Char} {offset : Nat}
    (there : VisibleAt (mask text) offset) : VisibleAt text offset := by
  obtain ⟨c, rest, visible, reads⟩ := there
  have noSpace : c ≠ ' ' := by
    rintro rfl
    exact absurd visible (by decide)
  obtain ⟨later, found⟩ := (covers_maskFrom .code text).readsAt reads noSpace
  exact ⟨c, later, visible, found⟩

section Bytes

variable {masked text : List Char}

/-- A character other than the newline has no newline among its bytes. -/
theorem ne_newline_of_mem_encodeChar {c : Char} (sameLine : c ≠ '\n') :
    ∀ byte ∈ String.utf8EncodeChar c, byte ≠ Utf8.byteOf '\n' := by
  rintro byte inside rfl
  exact sameLine (Utf8.eq_of_mem_encodeChar (by decide) inside)

/-- As many spaces have as many bytes of a space. -/
theorem encode_spaces (count : Nat) :
    Utf8.encode (List.replicate count ' ') = List.replicate count (Utf8.byteOf ' ') := by
  induction count with
  | zero => rfl
  | succ count ih =>
    rw [List.replicate_succ, List.replicate_succ, Utf8.encode_cons, ih]
    rfl

/-- Spaces cover bytes of which none is a newline. -/
theorem covers_spaces {bytes : List UInt8} (sameLine : ∀ byte ∈ bytes, byte ≠ Utf8.byteOf '\n') :
    List.Forall₂ CoversByte (List.replicate bytes.length (Utf8.byteOf ' ')) bytes := by
  induction bytes with
  | nil => exact .nil
  | cons byte rest ih =>
    obtain ⟨first, others⟩ := List.forall_mem_cons.mp sameLine
    exact .cons (Or.inr ⟨rfl, first⟩) (ih others)

/-- A covering text covers byte by byte. -/
theorem Covers.bytes (covers : Covers masked text) :
    List.Forall₂ CoversByte (Utf8.encode masked) (Utf8.encode text) := by
  induction covers with
  | done => exact .nil
  | shown c _ ih =>
    have same : List.Forall₂ CoversByte (String.utf8EncodeChar c) (String.utf8EncodeChar c) :=
      List.forall₂_same.mpr fun byte _ => Or.inl rfl
    rw [Utf8.encode_cons, Utf8.encode_cons]
    exact List.rel_append same ih
  | hidden sameLine _ ih =>
    have spaces := covers_spaces (ne_newline_of_mem_encodeChar sameLine)
    rw [String.length_utf8EncodeChar] at spaces
    rw [Utf8.encode_append, Utf8.encode_cons, encode_spaces]
    exact List.rel_append spaces ih

/-- Bytes that cover others are as many, have newlines at the same places, and everywhere the other
byte or a space. -/
theorem covers_iff_at {front back : List UInt8} (covers : List.Forall₂ CoversByte front back)
    (offset : Nat) :
    (front[offset]? = some (Utf8.byteOf '\n') ↔ back[offset]? = some (Utf8.byteOf '\n')) ∧
      ∀ byte, front[offset]? = some byte →
        byte = Utf8.byteOf ' ' ∨ back[offset]? = some byte := by
  induction covers generalizing offset with
  | nil => simp
  | @cons masked byte _ _ here _ ih =>
    cases offset with
    | succ offset => simpa using ih offset
    | zero =>
      have apart : Utf8.byteOf ' ' ≠ Utf8.byteOf '\n' := by decide
      rcases here with rfl | ⟨rfl, sameLine⟩
      · simp
      · simp [apart, sameLine]

end Bytes

end CfmlTidy.Source
