import Mathlib
import CfmlTidy.Proofs.Encoding.Detection
import CfmlTidy.Proofs.Layout.Content

/-!
# Writing a formatted text back

An encoding writes a text character by character, so a formatted text can be written wherever the
text itself can. What it is written as announces the same encoding as before: no mark comes about,
because no mark has a space or a line end in it, and no mark goes away or turns into another.
-/

namespace CfmlTidy.Encoding

open CfmlTidy.Layout

/-- Texts are written one after the other. -/
theorem encode?_append (encoding : Encoding) (front back : List Char) :
    encoding.encode? (front ++ back) =
      (encoding.encode? front).bind fun first =>
        (encoding.encode? back).map fun second => first ++ second := by
  cases encoding with
  | latin1 | windows1252 | ascii =>
    simp only [encode?, List.mapM_append, Option.map_eq_bind]
    rfl
  | utf8 => simp [encode?, Utf8.encode]
  | utf16 | utf16be | utf16le => simp [encode?, Utf16.encode]
  | utf32be | utf32le => simp [encode?, Utf32.encode]

/-- The empty text takes no bytes. -/
theorem encode?_nil (encoding : Encoding) : encoding.encode? [] = some [] := by
  cases encoding <;> rfl

/-- What two texts are written as together, when the whole can be written. -/
theorem encode?_append_eq_some {encoding : Encoding} {front back : List Char} {bytes : List UInt8}
    (written : encoding.encode? (front ++ back) = some bytes) :
    ∃ first second, encoding.encode? front = some first ∧ encoding.encode? back = some second ∧
      bytes = first ++ second := by
  rw [encode?_append] at written
  obtain ⟨first, front, rest⟩ := Option.bind_eq_some_iff.mp written
  obtain ⟨second, back, whole⟩ := Option.map_eq_some_iff.mp rest
  exact ⟨first, second, front, back, whole.symm⟩

/-- A text can be written exactly when each of its characters can. -/
theorem encode?_isSome_iff {encoding : Encoding} {text : List Char} :
    (encoding.encode? text).isSome = true ↔ ∀ c ∈ text, (encoding.encode? [c]).isSome = true := by
  induction text with
  | nil => simp [encode?_nil]
  | cons c rest ih =>
    rw [← List.singleton_append, encode?_append, List.forall_mem_append, ← ih,
      List.forall_mem_singleton]
    cases encoding.encode? [c] <;> cases encoding.encode? rest <;> simp

/-- Spaces and newlines can be written in every encoding. -/
theorem encode?_blank_isSome (encoding : Encoding) :
    (encoding.encode? [' ']).isSome = true ∧ (encoding.encode? ['\n']).isSome = true := by
  cases encoding <;> decide

/-- A formatted text can be written wherever the text can. -/
theorem encode?_format {encoding : Encoding} {text : List Char} {bytes : List UInt8}
    (indent : Nat) (written : encoding.encode? text = some bytes) :
    ∃ rewritten, encoding.encode? (format indent text) = some rewritten := by
  have whole : (encoding.encode? text).isSome = true := by rw [written]; rfl
  apply Option.isSome_iff_exists.mp
  rw [encode?_isSome_iff] at whole ⊢
  intro c inside
  rcases of_mem_format inside with listed | rfl | rfl
  · exact whole c listed
  · exact (encode?_blank_isSome encoding).1
  · exact (encode?_blank_isSome encoding).2

/-- A formatted text can be written back exactly when the encoding of its bytes was found. -/
theorem encode?_format_eq_none_iff {bytes : List UInt8} {indent : Nat} {fallback : String} :
    (detect bytes).encode? (format indent (decodeBytes bytes fallback).1) = none ↔
      detect bytes = .fallback := by
  cases found : detect bytes with
  | fallback => simp [Detection.encode?]
  | marked encoding =>
    obtain ⟨payload, written⟩ := encode?_of_marked (detect_eq_marked_iff.mp found)
      (format indent (decodeBytes bytes fallback).1)
    simp [Detection.encode?, written]
  | probed encoding =>
    obtain ⟨rewritten, written⟩ := encode?_format indent (encode?_decode_of_probed found)
    rw [decodeBytes_of_probed fallback found, Detection.encode?, written]
    simp

/-- The number of bytes that an encoding writes a multiple of. -/
def unitLength : Encoding → Nat
  | utf8 | latin1 | windows1252 | ascii => 1
  | utf16 | utf16be | utf16le => 2
  | utf32be | utf32le => 4

/-- A text takes a whole number of units. -/
theorem unitLength_dvd {encoding : Encoding} {text : List Char} {bytes : List UInt8}
    (written : encoding.encode? text = some bytes) : encoding.unitLength ∣ bytes.length := by
  cases encoding with
  | utf8 | latin1 | windows1252 | ascii => exact Nat.one_dvd _
  | utf16 | utf16be | utf16le =>
    obtain rfl := Option.some.inj written
    rw [Utf16.encode_eq]
    exact Nat.dvd_of_mod_eq_zero (Utf16.length_flatMap_unitBytes _ _)
  | utf32be | utf32le =>
    obtain rfl := Option.some.inj written
    simp [unitLength, Utf32.encode, Utf32.bytesOf]

/-- Whether the bytes of a character never agree with a mark from one of its units on. -/
def isApart (encoding other : Encoding) (start : Nat) (c : Char) : Bool :=
  (encoding.encode? [c]).all fun bytes =>
    !bytes.isPrefixOf (other.mark.drop start) && !(other.mark.drop start).isPrefixOf bytes

/-- Blanks are apart from every mark in every encoding. -/
theorem blanks_isApart (encoding : Encoding) :
    (marked.all fun other => (List.range other.mark.length).all fun start =>
      start % encoding.unitLength != 0 ||
        [' ', '\t', '\r', '\n'].all fun c => encoding.isApart other start c) = true := by
  cases encoding <;> decide +kernel

/-- What is written for a blank and more does not continue a mark. -/
theorem not_prefix_of_blank {encoding other : Encoding} {start : Nat} {c : Char}
    {first more : List UInt8} (listed : other ∈ marked) (early : start < other.mark.length)
    (aligned : encoding.unitLength ∣ start) (blank : isSolid c = false)
    (written : encoding.encode? [c] = some first) : ¬ other.mark.drop start <+: first ++ more := by
  have every := List.all_eq_true.mp (blanks_isApart encoding) other listed
  have there := List.all_eq_true.mp every start (List.mem_range.mpr early)
  rw [Nat.dvd_iff_mod_eq_zero.mp aligned] at there
  have among : c ∈ [' ', '\t', '\r', '\n'] := by
    simp only [isSolid, Bool.and_eq_false_iff, bne_eq_false_iff_eq] at blank
    simp only [List.mem_cons, List.not_mem_nil, or_false]
    tauto
  have apart := List.all_eq_true.mp (by simpa using there) c among
  rw [isApart, written, Option.all_some, Bool.and_eq_true, Bool.not_eq_true', Bool.not_eq_true',
    ← Bool.not_eq_true, ← Bool.not_eq_true, List.isPrefixOf_iff_prefix,
    List.isPrefixOf_iff_prefix] at apart
  intro starts
  rcases List.prefix_or_prefix_of_prefix starts (List.prefix_append first more) with left | right
  · exact apart.2 left
  · exact apart.1 right

/-- What a text is written as from its first blank on does not continue a mark. -/
theorem not_prefix_of_dropWhile {encoding other : Encoding} {start : Nat} {text : List Char}
    {rest : List UInt8} (listed : other ∈ marked) (early : start < other.mark.length)
    (aligned : encoding.unitLength ∣ start)
    (written : encoding.encode? (text.dropWhile isSolid) = some rest) :
    ¬ other.mark.drop start <+: rest := by
  cases left : text.dropWhile isSolid with
  | nil =>
    rw [left, encode?_nil, Option.some.injEq] at written
    rw [← written, List.prefix_nil, List.drop_eq_nil_iff]
    omega
  | cons c more =>
    rw [left, ← List.singleton_append] at written
    obtain ⟨first, second, single, -, rfl⟩ := encode?_append_eq_some written
    have blank : isSolid c = false := by
      have stops := List.head_dropWhile_not isSolid (l := text) (by simp [left])
      simpa [left] using stops
    exact not_prefix_of_blank listed early aligned blank single

/-- Formatting brings no mark about: one that starts what is written started the bytes before.
Nothing is written for a text of blanks; for any other, both texts start with the same solid
characters and go on with a blank or nothing. -/
theorem mark_prefix_of_format {encoding other : Encoding} {indent : Nat} {text : List Char}
    {bytes rewritten : List UInt8} (listed : other ∈ marked)
    (written : encoding.encode? text = some bytes)
    (formatted : encoding.encode? (format indent text) = some rewritten)
    (starts : other.mark <+: rewritten) : other.mark <+: bytes := by
  rcases takeWhile_format indent text with empty | same
  · rw [empty, encode?_nil, Option.some.injEq] at formatted
    rw [← formatted, List.prefix_nil] at starts
    rw [starts]
    exact List.nil_prefix
  · rw [← List.takeWhile_append_dropWhile (p := isSolid) (l := text)] at written
    rw [← List.takeWhile_append_dropWhile (p := isSolid) (l := format indent text), same]
      at formatted
    obtain ⟨front, _, kept, -, rfl⟩ := encode?_append_eq_some written
    obtain ⟨front', rest, kept', blank, rfl⟩ := encode?_append_eq_some formatted
    obtain rfl : front = front' := Option.some.inj (kept.symm.trans kept')
    have inside : other.mark.length ≤ front.length := by
      by_contra short
      rw [Nat.not_le] at short
      obtain ⟨tail, split⟩ :=
        List.prefix_of_prefix_length_le (List.prefix_append front rest) starts short.le
      rw [← split, List.prefix_append_right_inj] at starts
      refine not_prefix_of_dropWhile listed short (unitLength_dvd kept) blank ?_
      rwa [← split, List.drop_left]
    have early := List.prefix_of_prefix_length_le starts (List.prefix_append front rest) inside
    exact early.trans (List.prefix_append _ _)

/-- Bytes start with no mark exactly when no encoding with a mark is found in them. -/
theorem ofMark?_eq_none_iff {bytes : List UInt8} :
    ofMark? bytes = none ↔ ∀ other ∈ marked, ¬ other.mark <+: bytes := by
  simp [ofMark?, List.isPrefixOf_iff_prefix]

/-- What is written for a formatted text has no mark when the bytes before had none. -/
theorem ofMark?_format_eq_none {encoding : Encoding} {indent : Nat} {text : List Char}
    {bytes rewritten : List UInt8} (written : encoding.encode? text = some bytes)
    (formatted : encoding.encode? (format indent text) = some rewritten)
    (absent : ofMark? bytes = none) : ofMark? rewritten = none := by
  rw [ofMark?_eq_none_iff] at absent ⊢
  intro other listed starts
  exact absent other listed (mark_prefix_of_format listed written formatted starts)

/-- A formatted text starts with a solid character only when the text does. -/
theorem head?_of_format {indent : Nat} {text rest : List Char} {c : Char} (solid : isSolid c = true)
    (starts : format indent text = c :: rest) : ∃ more, text = c :: more := by
  rcases takeWhile_format indent text with empty | same
  · rw [empty] at starts
    contradiction
  · rw [starts, List.takeWhile_cons, if_pos solid] at same
    obtain ⟨more, whole⟩ := List.takeWhile_prefix (l := text) isSolid
    rw [← same] at whole
    exact ⟨_, whole.symm⟩

/-- Bytes behind the mark of UTF-16LE announce UTF-32LE when they start with two zeros. -/
theorem ofMark?_little (payload : List UInt8) :
    ofMark? (utf16le.mark ++ payload) =
      if [0, 0] <+: payload then some utf32le else some utf16le := by
  have tested : ofMark? (utf16le.mark ++ payload) =
      if List.isPrefixOf [0, 0] payload then some utf32le else some utf16le := by
    cases starts : List.isPrefixOf [0, 0] payload <;>
      simp [ofMark?, marked, mark, List.isPrefixOf, starts]
  rw [tested]
  simp only [List.isPrefixOf_iff_prefix]

/-- A formatted text behind a mark announces the encoding that the mark announced before. Only the
mark of UTF-16LE could be taken for another one, by a text that starts with U+0000. -/
theorem ofMark?_format_eq_some {encoding : Encoding} {indent : Nat} {bytes payload : List UInt8}
    (found : ofMark? bytes = some encoding)
    (formatted : encoding.encode?
      (format indent (encoding.decode (bytes.drop encoding.mark.length))) = some payload) :
    ofMark? (encoding.mark ++ payload) = some encoding := by
  have listed : encoding ∈ marked := List.mem_of_find?_eq_some found
  simp only [marked, List.mem_cons, List.not_mem_nil, or_false] at listed
  rcases listed with rfl | rfl | rfl | rfl | rfl
  · rfl
  · rfl
  · rfl
  · rfl
  · rw [← mark_append_drop found, ofMark?_little] at found
    rw [ofMark?_little]
    have other : ¬ [0, 0] <+: bytes.drop utf16le.mark.length := by
      intro starts
      rw [if_pos starts] at found
      contradiction
    apply if_neg
    rintro ⟨rest, rfl⟩
    have back := (encoding_exact utf16le).lawful _ _ formatted
    have units : Utf16.units .little ([0, 0] ++ rest) =
        Utf16.unitsOf '\x00' ++ Utf16.units .little rest := rfl
    rw [decode, Utf16.decode, units, Utf16.decodeUnits_unitsOf_append] at back
    obtain ⟨more, whole⟩ := head?_of_format (by decide) back.symm
    exact other (Utf16.encode_prefix_of_decode whole (by decide))

/-- Whether probing finds no other encoding for rewritten bytes than it found for the bytes. -/
def isKept (bytes rewritten : List UInt8) : Bool :=
  match detect bytes, detect rewritten with
  | .probed encoding, .probed other => other == encoding
  | _, _ => true

/-- Bytes that stay are probed as before. -/
theorem isKept_self (bytes : List UInt8) : isKept bytes bytes = true := by
  rw [isKept]
  cases detect bytes <;> simp

/-- Bytes that are not kept were found by probing. -/
theorem probed_of_not_kept {bytes rewritten : List UInt8}
    (lost : isKept bytes rewritten = false) : ∃ encoding, detect rewritten = .probed encoding := by
  rw [isKept] at lost
  cases before : detect bytes <;> cases again : detect rewritten <;> simp_all

/-- A formatted text is read back from what it is written as, by the same way of finding the
encoding, unless probing finds none or another. -/
theorem decodeBytes_format {indent : Nat} {fallback : String} {bytes rewritten : List UInt8}
    (written : (detect bytes).encode? (format indent (decodeBytes bytes fallback).1) =
      some rewritten) (kept : isKept bytes rewritten = true) :
    detect rewritten = .fallback ∨
      decodeBytes rewritten fallback =
        (format indent (decodeBytes bytes fallback).1, detect bytes) := by
  cases found : detect bytes with
  | fallback =>
    rw [found] at written
    contradiction
  | marked encoding =>
    rw [decodeBytes_of_marked fallback found] at written ⊢
    rw [found] at written
    obtain ⟨payload, formatted, rfl⟩ := Option.map_eq_some_iff.mp written
    have again := ofMark?_format_eq_some (detect_eq_marked_iff.mp found) formatted
    right
    rw [decodeBytes_of_marked fallback (detect_eq_marked_iff.mpr again), List.drop_left,
      (encoding_exact encoding).lawful _ _ formatted]
  | probed encoding =>
    rw [decodeBytes_of_probed fallback found] at written ⊢
    rw [found] at written
    have absent := ofMark?_format_eq_none (encode?_decode_of_probed found) written
      (detect_eq_probed_iff.mp found).1
    cases again : detect rewritten with
    | fallback => exact Or.inl rfl
    | marked other =>
      rw [detect_eq_marked_iff, absent] at again
      contradiction
    | probed other =>
      rw [isKept, found, again] at kept
      obtain rfl := eq_of_beq kept
      right
      rw [decodeBytes_of_probed fallback again, (encoding_exact other).lawful _ _ written]

/-- Formatting keeps a text plausible that has no stray control characters. -/
theorem isPlausible_format {indent : Nat} {text : List Char} (accepted : isPlausible text = true)
    (tidy : text.any isStray = false) : isPlausible (format indent text) = true := by
  have clean : (format indent text).contains replacement = false := by
    rw [List.contains_eq_mem, decide_eq_false_iff_not]
    intro inside
    rcases of_mem_format inside with listed | space | newline
    · exact replacement_not_mem_of_isPlausible accepted listed
    · exact absurd space (by decide)
    · exact absurd newline (by decide)
  have none : (format indent text).countP isStray = 0 := by
    rw [List.countP_eq_zero]
    intro c inside
    rcases of_mem_format inside with listed | rfl | rfl
    · exact List.any_eq_false.mp tidy c listed
    · decide
    · decide
  rw [isPlausible, clean, none]
  cases format indent text <;> simp

/-- Probing finds UTF-8 again for a text without stray control characters. -/
theorem isKept_of_utf8 {indent : Nat} {bytes rewritten : List UInt8}
    (found : detect bytes = .probed utf8) (tidy : (utf8.decode bytes).any isStray = false)
    (written : utf8.encode? (format indent (utf8.decode bytes)) = some rewritten) :
    isKept bytes rewritten = true := by
  have absent := ofMark?_format_eq_none (encode?_decode_of_probed found) written
    (detect_eq_probed_iff.mp found).1
  have accepted : isPlausible (utf8.decode rewritten) = true := by
    rw [(encoding_exact utf8).lawful _ _ written]
    exact isPlausible_format (isPlausible_of_probed found) tidy
  have again : detect rewritten = .probed utf8 := by
    rw [detect_eq_probed_iff, candidates, List.find?_cons, accepted]
    exact ⟨absent, rfl⟩
  rw [isKept, found, again]
  rfl

end CfmlTidy.Encoding
