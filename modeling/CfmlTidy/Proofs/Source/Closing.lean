import Mathlib
import CfmlTidy.Proofs.Source.Bracket
import CfmlTidy.Proofs.Source.Function
import CfmlTidy.Proofs.Text.Offset

/-!
# The bracket that closes another

The partner of an opening bracket is the first byte behind it up to which the brackets of its kind
are closed as often as they are opened. It can be found byte by byte with a counter that is raised
at brackets that open and lowered at brackets that close: the counter starts at the opening bracket
and the search ends where it is back at zero, so it is never lowered below zero. Fronts that leave a
bracket open are what carries both: `StaysOpen` of the text behind the bracket says of all fronts,
also of those that end inside a character, that they close fewer brackets than are open.
-/

namespace CfmlTidy.Source

open CfmlTidy.Encoding.Utf8 (byteOf byteOf_inj count_encode encode encode_append encode_cons
  encodeChar_of_ascii eq_of_mem_encodeChar length_encode)
open CfmlTidy.Text

/-- Opening brackets, each with the one that closes it. -/
def bracketPairs : List (Char × Char) := [('(', ')'), ('[', ']'), ('{', '}')]

/-- An opening bracket of a kind stands at a byte of a text. -/
def OpensAt (text : List Char) (offset : Nat) (opening closing : Char) : Prop :=
  (opening, closing) ∈ bracketPairs ∧ (encode text)[offset]? = some (byteOf opening)

/-- The bytes of a text from one offset through another. -/
def bytesThrough (text : List Char) (first last : Nat) : List UInt8 :=
  ((encode text).take (last + 1)).drop first

/-- The later offsets of a text through which, from an offset on, brackets of a kind are closed as
often as they are opened. -/
def evenThrough (text : List Char) (offset : Nat) (opening closing : Char) : Set Nat :=
  {last | offset < last ∧ last < (encode text).length ∧
    (bytesThrough text offset last).count (byteOf opening) =
      (bytesThrough text offset last).count (byteOf closing)}

/-- A counter at an offset that cannot be lowered any more. -/
structure Underflow where
  /-- The offset of the byte at which the counter was to be lowered. -/
  offset : Nat
deriving Repr, DecidableEq

/-- Count the brackets of a kind in bytes that start at an offset. The answer is the offset at which
the count comes back to zero. -/
def countDown (opening closing : UInt8) :
    (depth offset : Nat) → List UInt8 → Except Underflow (Option Nat)
  | _, _, [] => .ok none
  | depth, offset, byte :: rest =>
    if byte = opening then countDown opening closing (depth + 1) (offset + 1) rest
    else if byte = closing then
      match depth with
      | 0 => .error ⟨offset⟩
      | outer + 1 =>
        if outer = 0 then .ok (some offset) else countDown opening closing outer (offset + 1) rest
    else countDown opening closing depth (offset + 1) rest

/-- Look among bytes for the partner of the bracket at an offset. -/
def findPartner (bytes : List UInt8) (offset : Nat) : Except Underflow (Option Nat) :=
  match bytes[offset]? with
  | none => .ok none
  | some first =>
    match closerOf? (Char.ofNat first.toNat) with
    | none => .ok none
    | some closing => countDown first (byteOf closing) 0 offset (bytes.drop offset)

section Kinds

variable {opening closing : Char}

/-- A pair of brackets is listed exactly when the second closes the first. -/
theorem mem_bracketPairs_iff :
    (opening, closing) ∈ bracketPairs ↔ closerOf? opening = some closing := by
  constructor
  · intro listed
    simp only [bracketPairs, List.mem_cons, Prod.mk.injEq, List.not_mem_nil, or_false] at listed
    rcases listed with ⟨rfl, rfl⟩ | ⟨rfl, rfl⟩ | ⟨rfl, rfl⟩ <;> rfl
  · intro partners
    unfold closerOf? at partners
    split at partners <;> cases partners <;> decide

/-- A bracket is told from its partner, and both are ASCII characters. -/
theorem apart_of_mem_bracketPairs (kind : (opening, closing) ∈ bracketPairs) :
    opening ≠ closing ∧ opening.toNat < 0x80 ∧ closing.toNat < 0x80 := by
  simp only [bracketPairs, List.mem_cons, Prod.mk.injEq, List.not_mem_nil, or_false] at kind
  rcases kind with ⟨rfl, rfl⟩ | ⟨rfl, rfl⟩ | ⟨rfl, rfl⟩ <;> decide

/-- A bracket opens where it is read. -/
theorem opensAt_iff {text : List Char} {offset : Nat} :
    OpensAt text offset opening closing ↔
      closerOf? opening = some closing ∧ ∃ rest, ReadsAt text offset (opening :: rest) := by
  rw [OpensAt, mem_bracketPairs_iff]
  refine and_congr_right fun partners => getElem?_encode_iff ?_
  exact (apart_of_mem_bracketPairs (mem_bracketPairs_iff.mpr partners)).2.1

/-- What is found for a bracket where it opens. -/
theorem matchingClose?_eq {text rest : List Char} {offset : Nat}
    (partners : closerOf? opening = some closing) (reads : ReadsAt text offset (opening :: rest)) :
    matchingClose? text offset =
      (splitAtClose opening closing 0 rest).map fun cut => offset + 1 + byteLength cut.1 := by
  rw [matchingClose?, dropBytes_eq_some_iff.mpr reads]
  simp only [bind, Option.bind, partners]
  cases splitAtClose opening closing 0 rest <;> rfl

/-- Something is found only for a bracket that opens. -/
theorem exists_opensAt_of_matchingClose? {text : List Char} {offset close : Nat}
    (found : matchingClose? text offset = some close) :
    ∃ opening closing rest, closerOf? opening = some closing ∧
      ReadsAt text offset (opening :: rest) := by
  rw [matchingClose?] at found
  obtain ⟨cut, dropped, found⟩ := Option.bind_eq_some_iff.mp found
  cases cut with
  | nil => contradiction
  | cons opening rest =>
    obtain ⟨closing, partners, -⟩ := Option.bind_eq_some_iff.mp found
    exact ⟨opening, closing, rest, partners, dropBytes_eq_some_iff.mp dropped⟩

end Kinds

section Fronts

variable {text rest inside after : List Char} {opening closing : Char} {offset last : Nat}

/-- From a bracket on, the bytes through an offset are the bracket and bytes behind it. -/
theorem bytesThrough_eq (ascii : opening.toNat < 0x80)
    (reads : ReadsAt text offset (opening :: rest)) (later : offset ≤ last) :
    bytesThrough text offset last = byteOf opening :: (encode rest).take (last - offset) := by
  have size : last + 1 - offset = last - offset + 1 := by omega
  rw [bytesThrough, List.drop_take, reads.drop_encode, encode_cons, encodeChar_of_ascii ascii, size]
  rfl

/-- Where no front of the text behind a bracket closes it, no front of the bytes does. -/
theorem count_lt_of_staysOpen (kind : (opening, closing) ∈ bracketPairs)
    (stays : StaysOpen opening closing 0 inside) (size : Nat) :
    (byteOf opening :: (encode inside).take size).count (byteOf closing) <
      (byteOf opening :: (encode inside).take size).count (byteOf opening) := by
  obtain ⟨differ, openingAscii, closingAscii⟩ := apart_of_mem_bracketPairs kind
  have bytes : byteOf opening ≠ byteOf closing := by
    rwa [ne_eq, byteOf_inj openingAscii closingAscii]
  obtain ⟨front, within, counts⟩ := exists_front_count inside size
  have bound := stays front within
  rw [List.count_cons_of_ne bytes, List.count_cons_self, counts _ openingAscii,
    counts _ closingAscii]
  omega

/-- Before a text is cut, the bytes behind the bracket are those of the text inside. -/
theorem take_inside (cut : splitAtClose opening closing 0 rest = some (inside, after)) {size : Nat}
    (short : size ≤ byteLength inside) :
    (encode rest).take size = (encode inside).take size := by
  rw [splitAtClose_eq_some cut, encode_append, List.take_append_of_le_length]
  rwa [length_encode]

/-- Through the closing bracket, the bytes are those of both brackets and of the text inside. -/
theorem take_closing (ascii : closing.toNat < 0x80)
    (cut : splitAtClose opening closing 0 rest = some (inside, after)) :
    (encode rest).take (byteLength inside + 1) = encode inside ++ [byteOf closing] := by
  rw [splitAtClose_eq_some cut, encode_append, ← length_encode, List.take_length_add_append,
    encode_cons, encodeChar_of_ascii ascii]
  rfl

/-- A bracket is closed where brackets of its kind are first closed as often as they are opened. -/
theorem isLeast_of_splitAtClose (kind : (opening, closing) ∈ bracketPairs)
    (reads : ReadsAt text offset (opening :: rest))
    (cut : splitAtClose opening closing 0 rest = some (inside, after)) :
    IsLeast (evenThrough text offset opening closing) (offset + 1 + byteLength inside) := by
  obtain ⟨differ, openingAscii, closingAscii⟩ := apart_of_mem_bracketPairs kind
  have bytes : byteOf opening ≠ byteOf closing := by
    rwa [ne_eq, byteOf_inj openingAscii closingAscii]
  obtain ⟨counts, stays⟩ := counts_of_splitAtClose differ cut
  constructor
  · have total := reads.add_byteLength
    rw [splitAtClose_eq_some cut, byteLength, byteLength_append] at total
    have filled := byteLength_cons_pos closing after
    have positive := opening.utf8Size_pos
    have single : offset + 1 + byteLength inside - offset = byteLength inside + 1 := by omega
    refine ⟨by omega, by rw [length_encode]; omega, ?_⟩
    rw [bytesThrough_eq openingAscii reads (by omega), single, take_closing closingAscii cut,
      List.count_cons_self, List.count_cons_of_ne bytes, List.count_append, List.count_append,
      count_encode openingAscii, count_encode closingAscii, List.count_singleton_self,
      List.count_singleton, if_neg (by simpa using bytes.symm), counts]
  · rintro earlier ⟨later, -, even⟩
    by_contra before
    have short : earlier - offset ≤ byteLength inside := by omega
    have leaves := count_lt_of_staysOpen kind stays (earlier - offset)
    rw [bytesThrough_eq openingAscii reads later.le, take_inside cut short] at even
    omega

/-- A bracket that is never closed is closed nowhere as often as it is opened. -/
theorem evenThrough_eq_empty (kind : (opening, closing) ∈ bracketPairs)
    (reads : ReadsAt text offset (opening :: rest))
    (missing : splitAtClose opening closing 0 rest = none) :
    evenThrough text offset opening closing = ∅ := by
  obtain ⟨differ, ascii, -⟩ := apart_of_mem_bracketPairs kind
  have stays := staysOpen_of_splitAtClose differ missing
  refine Set.eq_empty_iff_forall_notMem.mpr ?_
  rintro last ⟨later, -, even⟩
  have leaves := count_lt_of_staysOpen kind stays (last - offset)
  rw [bytesThrough_eq ascii reads later.le] at even
  omega

/-- Every proper front of the bytes from a bracket through its partner leaves a bracket open. -/
theorem count_lt_of_prefix (kind : (opening, closing) ∈ bracketPairs)
    (reads : ReadsAt text offset (opening :: rest))
    (cut : splitAtClose opening closing 0 rest = some (inside, after)) {front : List UInt8}
    (within : front <+: bytesThrough text offset (offset + 1 + byteLength inside))
    (filled : front ≠ [])
    (proper : front ≠ bytesThrough text offset (offset + 1 + byteLength inside)) :
    front.count (byteOf closing) < front.count (byteOf opening) := by
  obtain ⟨differ, openingAscii, closingAscii⟩ := apart_of_mem_bracketPairs kind
  have stays := (counts_of_splitAtClose differ cut).2
  have single : offset + 1 + byteLength inside - offset = byteLength inside + 1 := by omega
  rw [bytesThrough_eq openingAscii reads (by omega), single, take_closing closingAscii cut]
    at within proper
  obtain ⟨first, more, rfl⟩ := List.exists_cons_of_ne_nil filled
  obtain ⟨rfl, starts⟩ := List.cons_prefix_cons.mp within
  rcases List.prefix_concat_iff.mp starts with rfl | early
  · exact absurd rfl proper
  · rw [List.prefix_iff_eq_take.mp early]
    exact count_lt_of_staysOpen kind stays more.length

end Fronts

section Counting

variable {opening closing : Char}

/-- Other bytes do not move the counter. -/
theorem countDown_other {mark closer : UInt8} {front : List UInt8}
    (other : ∀ byte ∈ front, byte ≠ mark ∧ byte ≠ closer) (depth offset : Nat)
    (rest : List UInt8) :
    countDown mark closer depth offset (front ++ rest) =
      countDown mark closer depth (offset + front.length) rest := by
  induction front generalizing offset with
  | nil => rfl
  | cons byte more ih =>
    obtain ⟨⟨noMark, noCloser⟩, others⟩ := List.forall_mem_cons.mp other
    rw [List.cons_append, countDown.eq_def]
    simp only [if_neg noMark, if_neg noCloser]
    rw [ih others, List.length_cons, Nat.add_right_comm, Nat.add_assoc]

/-- Behind a bracket, the counter comes back to zero where the text is cut. It stands one above the
number of further brackets that are open, so it is lowered only above zero. Behind a character,
everything lies as many bytes further on as it has. -/
theorem countDown_encode (kind : (opening, closing) ∈ bracketPairs) (depth offset : Nat)
    (text : List Char) :
    countDown (byteOf opening) (byteOf closing) (depth + 1) offset (encode text) =
      .ok ((splitAtClose opening closing depth text).map fun cut => offset + byteLength cut.1) := by
  obtain ⟨differ, openingAscii, closingAscii⟩ := apart_of_mem_bracketPairs kind
  have bytes : byteOf closing ≠ byteOf opening := by
    rw [ne_eq, byteOf_inj closingAscii openingAscii]
    exact differ.symm
  have further (offset : Nat) (c : Char) (answer : Option (List Char × List Char)) :
      (answer.map fun cut => offset + c.utf8Size + byteLength cut.1) =
        (answer.map fun cut => (c :: cut.1, cut.2)).map fun cut => offset + byteLength cut.1 := by
    rw [Option.map_map]
    congr 1
    funext cut
    rw [Function.comp_apply, byteLength, Nat.add_assoc]
  fun_induction splitAtClose opening closing depth text generalizing offset with
  | case1 depth => rfl
  | case2 depth rest ih =>
    rw [encode_cons, encodeChar_of_ascii openingAscii, List.singleton_append, countDown,
      if_pos rfl, ← further, utf8Size_of_ascii openingAscii]
    exact ih _
  | case3 rest _ =>
    rw [encode_cons, encodeChar_of_ascii closingAscii, List.singleton_append, countDown,
      if_neg bytes, if_pos rfl]
    rfl
  | case4 rest _ outer ih =>
    rw [encode_cons, encodeChar_of_ascii closingAscii, List.singleton_append, countDown,
      if_neg bytes, if_pos rfl, if_neg (Nat.succ_ne_zero _), ← further,
      utf8Size_of_ascii closingAscii]
    exact ih _
  | case5 depth c rest notOpening notClosing ih =>
    have other :
        ∀ byte ∈ String.utf8EncodeChar c, byte ≠ byteOf opening ∧ byte ≠ byteOf closing := by
      intro byte inside
      constructor
      · rintro rfl
        exact notOpening (eq_of_mem_encodeChar openingAscii inside)
      · rintro rfl
        exact notClosing (eq_of_mem_encodeChar closingAscii inside)
    rw [encode_cons, countDown_other other, String.length_utf8EncodeChar, ← further]
    exact ih _

/-- Counting bytes finds the same partner, and the counter is never lowered below zero. Where the
byte of a bracket stands, the bracket stands in the text. -/
theorem findPartner_encode (text : List Char) (offset : Nat) :
    findPartner (encode text) offset = .ok (matchingClose? text offset) := by
  by_cases opens : ∃ opening closing rest, closerOf? opening = some closing ∧
      ReadsAt text offset (opening :: rest)
  · obtain ⟨opening, closing, rest, partners, reads⟩ := opens
    have kind := mem_bracketPairs_iff.mpr partners
    have ascii := (apart_of_mem_bracketPairs kind).2.1
    have first : (encode text)[offset]? = some (byteOf opening) :=
      (getElem?_encode_iff ascii).mpr ⟨rest, reads⟩
    simp only [findPartner, first, char_byteOf ascii, partners]
    rw [reads.drop_encode, encode_cons, encodeChar_of_ascii ascii, List.singleton_append, countDown,
      if_pos rfl, countDown_encode kind, matchingClose?_eq partners reads]
  · have nothing : matchingClose? text offset = none := by
      by_contra found
      obtain ⟨close, found⟩ := Option.ne_none_iff_exists'.mp found
      exact opens (exists_opensAt_of_matchingClose? found)
    rw [nothing, findPartner]
    split
    · rfl
    · next first found =>
      split
      · rfl
      · next closing partners =>
        have kind := mem_bracketPairs_iff.mpr partners
        have ascii := (apart_of_mem_bracketPairs kind).2.1
        rw [← byteOf_char first] at found
        obtain ⟨rest, reads⟩ := (getElem?_encode_iff ascii).mp found
        exact absurd ⟨_, closing, rest, partners, reads⟩ opens

end Counting

/-- The partner of a bracket is found exactly where an opening bracket stands at the offset, and is
then the first later offset through which the brackets of the kind are closed as often as they are
opened. Counting byte by byte finds the same, and the counter is never lowered below zero. All
shorter fronts of the bytes from the bracket through its partner open more than they close. -/
theorem matchingClose?_exact (text : List Char) (offset : Nat) :
    (∀ close : Nat, matchingClose? text offset = some close ↔
      ∃ opening closing, OpensAt text offset opening closing ∧
        IsLeast (evenThrough text offset opening closing) close) ∧
      findPartner (encode text) offset = .ok (matchingClose? text offset) ∧
      ∀ (opening closing : Char) (close : Nat), OpensAt text offset opening closing →
        matchingClose? text offset = some close →
          ∀ front : List UInt8, front <+: bytesThrough text offset close → front ≠ [] →
            front ≠ bytesThrough text offset close →
              front.count (byteOf closing) < front.count (byteOf opening) := by
  refine ⟨fun close => ⟨?_, ?_⟩, findPartner_encode text offset, ?_⟩
  · intro found
    obtain ⟨opening, closing, rest, partners, reads⟩ := exists_opensAt_of_matchingClose? found
    rw [matchingClose?_eq partners reads] at found
    obtain ⟨⟨inside, after⟩, cut, rfl⟩ := Option.map_eq_some_iff.mp found
    exact ⟨opening, closing, opensAt_iff.mpr ⟨partners, rest, reads⟩,
      isLeast_of_splitAtClose (mem_bracketPairs_iff.mpr partners) reads cut⟩
  · rintro ⟨opening, closing, opens, least⟩
    obtain ⟨partners, rest, reads⟩ := opensAt_iff.mp opens
    rw [matchingClose?_eq partners reads]
    cases cut : splitAtClose opening closing 0 rest with
    | none =>
      have member := least.1
      rw [evenThrough_eq_empty opens.1 reads cut] at member
      contradiction
    | some parts => exact congrArg some ((isLeast_of_splitAtClose opens.1 reads cut).unique least)
  · intro opening closing close opens found front within filled proper
    obtain ⟨partners, rest, reads⟩ := opensAt_iff.mp opens
    rw [matchingClose?_eq partners reads] at found
    obtain ⟨⟨inside, after⟩, cut, rfl⟩ := Option.map_eq_some_iff.mp found
    exact count_lt_of_prefix opens.1 reads cut within filled proper

/-- A pair of braces with a pair inside, crossed by brackets of other kinds, and with characters of
two bytes in front of it and in it. -/
def crossedBrackets : List Char := "é\x7bß(\x7b)\x7d[ü\x7d]\x7d".toList

/-- Only braces count for the partner of a brace, and they count in bytes. -/
theorem matchingClose?_exact_crossed :
    matchingClose? crossedBrackets 2 = some 12 ∧
      IsLeast (evenThrough crossedBrackets 2 '{' '}') 12 ∧
      findPartner (encode crossedBrackets) 2 = .ok (some 12) ∧
      matchingClose? crossedBrackets 14 = none := by
  obtain ⟨exact, counted, -⟩ := matchingClose?_exact crossedBrackets 2
  have found : matchingClose? crossedBrackets 2 = some 12 := by decide +kernel
  obtain ⟨opening, closing, ⟨kind, byte⟩, least⟩ := (exact 12).mp found
  have brace : (encode crossedBrackets)[2]? = some (byteOf '{') := by decide +kernel
  have same : byteOf opening = byteOf '{' := Option.some.inj (byte.symm.trans brace)
  obtain ⟨-, ascii, -⟩ := apart_of_mem_bracketPairs kind
  obtain rfl := (byteOf_inj ascii (by decide)).mp same
  obtain rfl : '}' = closing := Option.some.inj (mem_bracketPairs_iff.mp kind)
  exact ⟨found, least, found ▸ counted, by decide +kernel⟩

end CfmlTidy.Source
