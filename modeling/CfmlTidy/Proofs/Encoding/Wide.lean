import Mathlib
import CfmlTidy.Encoding.Wide
import CfmlTidy.Proofs.Encoding.Exact

/-!
# UTF-16 and UTF-32 are exact

Both encodings are exact in either byte order. UTF-16 takes two steps, bytes as units and units
as characters, and each step is undone on its own: a unit fits two bytes, and a pair of
surrogates is the only way to write a character from U+10000 on.
-/

namespace CfmlTidy.Encoding

namespace Utf16

/-- A unit fits two bytes. -/
theorem unit_lt (order : ByteOrder) (first second : UInt8) : unit order first second < 0x10000 := by
  have left := first.toNat_lt
  have right := second.toNat_lt
  cases order <;> simp only [unit] <;> omega

/-- A unit is written as the two bytes it was read from. -/
theorem unitBytes_unit (order : ByteOrder) (first second : UInt8) :
    unitBytes order (unit order first second) = [first, second] := by
  have left := first.toNat_lt
  have right := second.toNat_lt
  cases order with
  | big =>
    simp only [unit, unitBytes]
    rw [byte_of_toNat first (by omega), byte_of_toNat second (by omega)]
  | little =>
    simp only [unit, unitBytes]
    rw [byte_of_toNat first (by omega), byte_of_toNat second (by omega)]

/-- A unit is read back from its two bytes, whatever follows them. -/
theorem units_unitBytes_append (order : ByteOrder) {value : Nat} (small : value < 0x10000)
    (rest : List UInt8) :
    units order (unitBytes order value ++ rest) = value :: units order rest := by
  have high := toNat_byte (show value / 256 < 256 by omega)
  have low := toNat_byte (show value % 256 < 256 by omega)
  have parts : value / 256 * 256 + value % 256 = value := by omega
  cases order with
  | big => simp only [unitBytes, List.cons_append, List.nil_append, units, unit, high, low, parts]
  | little =>
    simp only [unitBytes, List.cons_append, List.nil_append, units, unit, high, low, parts]

/-- Units are read back from their bytes. -/
theorem units_flatMap_unitBytes (order : ByteOrder) (values : List Nat)
    (small : ∀ value ∈ values, value < 0x10000) :
    units order (values.flatMap (unitBytes order)) = values := by
  induction values with
  | nil => rfl
  | cons value rest ih =>
    rw [List.flatMap_cons, units_unitBytes_append order (small value List.mem_cons_self),
      ih fun later inside => small later (List.mem_cons_of_mem value inside)]

/-- The bytes of units are even in number. -/
theorem length_flatMap_unitBytes (order : ByteOrder) (values : List Nat) :
    (values.flatMap (unitBytes order)).length % 2 = 0 := by
  induction values with
  | nil => rfl
  | cons value rest ih =>
    rw [List.flatMap_cons, List.length_append]
    cases order <;> simp only [unitBytes, List.length_cons, List.length_nil] <;> omega

/-- The units of some bytes fit two bytes each. -/
theorem units_lt (order : ByteOrder) (bytes : List UInt8) :
    ∀ value ∈ units order bytes, value < 0x10000 := by
  fun_induction units order bytes with
  | case1 first second rest ih =>
    intro value inside
    rcases List.mem_cons.mp inside with rfl | later
    · exact unit_lt order first second
    · exact ih value later
  | case2 => simp

/-- Bytes are the bytes of their units, and one more when they are odd in number. -/
theorem flatMap_unitBytes_units (order : ByteOrder) (bytes : List UInt8) :
    ∃ left, (units order bytes).flatMap (unitBytes order) ++ left = bytes ∧
      left.length = bytes.length % 2 := by
  fun_induction units order bytes with
  | case1 first second rest ih =>
    obtain ⟨left, written, count⟩ := ih
    refine ⟨left, ?_, by simp only [List.length_cons]; omega⟩
    rw [List.flatMap_cons, unitBytes_unit, List.append_assoc, written]
    rfl
  | case2 bytes short =>
    match bytes, short with
    | [], _ => exact ⟨[], rfl, rfl⟩
    | [single], _ => exact ⟨[single], rfl, rfl⟩
    | first :: second :: rest, short => exact absurd rfl (short first second rest)

/-- The units of a character fit two bytes each. -/
theorem unitsOf_lt (c : Char) : ∀ value ∈ unitsOf c, value < 0x10000 := by
  have valid := char_valid c
  intro value inside
  unfold unitsOf at inside
  split_ifs at inside with plain
  · rw [List.mem_singleton] at inside
    omega
  · simp only [List.mem_cons, List.not_mem_nil, or_false] at inside
    omega

/-- A character is read back from its units, whatever follows them. -/
theorem decodeUnits_unitsOf_append (c : Char) (rest : List Nat) :
    decodeUnits (unitsOf c ++ rest) = c :: decodeUnits rest := by
  have valid := char_valid c
  unfold unitsOf
  split_ifs with plain
  · have notHigh : isHigh c.toNat = false := by simp [isHigh]; omega
    have notLow : isLow c.toNat = false := by simp [isLow]; omega
    rw [List.cons_append, List.nil_append, decodeUnits.eq_def]
    simp only [notHigh, notLow, Bool.false_eq_true, if_false, Char.ofNat_toNat]
  · have high : isHigh (0xD800 + (c.toNat - 0x10000) / 0x400) = true := by simp [isHigh]; omega
    have low : isLow (0xDC00 + (c.toNat - 0x10000) % 0x400) = true := by simp [isLow]; omega
    rw [List.cons_append, List.cons_append, List.nil_append, decodeUnits.eq_def]
    simp only [high, low, if_true, pairChar]
    rw [show 0x10000 + (0xD800 + (c.toNat - 0x10000) / 0x400 - 0xD800) * 0x400 +
      (0xDC00 + (c.toNat - 0x10000) % 0x400 - 0xDC00) = c.toNat by omega, Char.ofNat_toNat]

/-- The units of a character read from a surrogate pair are that pair. -/
theorem unitsOf_pairChar {high low : Nat} (opens : isHigh high = true) (closes : isLow low = true) :
    unitsOf (pairChar high low) = [high, low] := by
  simp only [isHigh, isLow, Bool.and_eq_true, decide_eq_true_eq] at opens closes
  have value : (pairChar high low).toNat = 0x10000 + (high - 0xD800) * 0x400 + (low - 0xDC00) :=
    toNat_char (Or.inr (by omega))
  unfold unitsOf
  rw [value, if_neg (by omega),
    show 0xD800 + (0x10000 + (high - 0xD800) * 0x400 + (low - 0xDC00) - 0x10000) / 0x400 = high
      by omega,
    show 0xDC00 + (0x10000 + (high - 0xD800) * 0x400 + (low - 0xDC00) - 0x10000) % 0x400 = low
      by omega]

/-- The unit of a character read from one unit is that unit. -/
theorem unitsOf_single {value : Nat} (small : value < 0x10000) (notHigh : ¬ isHigh value = true)
    (notLow : ¬ isLow value = true) : unitsOf (Char.ofNat value) = [value] := by
  simp only [isHigh, isLow, Bool.and_eq_true, decide_eq_true_eq] at notHigh notLow
  have number : (Char.ofNat value).toNat = value := toNat_char (by unfold Nat.isValidChar; omega)
  unfold unitsOf
  rw [number, if_pos small]

/-- Units read without a replacement character are the units of their reading. -/
theorem flatMap_unitsOf_decodeUnits (values : List Nat)
    (small : ∀ value ∈ values, value < 0x10000) (clean : replacement ∉ decodeUnits values) :
    (decodeUnits values).flatMap unitsOf = values := by
  fun_induction decodeUnits values with
  | case1 => rfl
  | case2 => exact absurd List.mem_cons_self clean
  | case3 high opens low rest closes ih =>
    rw [List.mem_cons, not_or] at clean
    rw [List.flatMap_cons, unitsOf_pairChar opens closes,
      ih (fun later inside => small later (by simp [inside])) clean.2]
    rfl
  | case4 => exact absurd List.mem_cons_self clean
  | case5 => exact absurd List.mem_cons_self clean
  | case6 value rest notHigh notLow ih =>
    rw [List.mem_cons, not_or] at clean
    rw [List.flatMap_cons, unitsOf_single (small value List.mem_cons_self) notHigh notLow,
      ih (fun later inside => small later (List.mem_cons_of_mem value inside)) clean.2]
    rfl

/-- The bytes of a text are the bytes of its units. -/
theorem encode_eq (order : ByteOrder) (text : List Char) :
    encode order text = (text.flatMap unitsOf).flatMap (unitBytes order) := by
  rw [encode, List.flatMap_assoc]

/-- A text is read back from its bytes. -/
theorem decode_encode (order : ByteOrder) (text : List Char) :
    decode order (encode order text) = text := by
  have small : ∀ value ∈ text.flatMap unitsOf, value < 0x10000 := by
    intro value inside
    obtain ⟨c, _, among⟩ := List.mem_flatMap.mp inside
    exact unitsOf_lt c value among
  have reading : decodeUnits (text.flatMap unitsOf) = text := by
    induction text with
    | nil => simp [decodeUnits]
    | cons c rest ih =>
      rw [List.flatMap_cons, decodeUnits_unitsOf_append,
        ih fun value inside => small value (by rw [List.flatMap_cons]; simp [inside])]
  rw [decode, encode_eq, units_flatMap_unitBytes order _ small, reading,
    if_pos (length_flatMap_unitBytes order _), List.append_nil]

/-- Bytes read without a replacement character are the bytes of their reading: none is left over,
and no surrogate is unpaired. -/
theorem encode_decode (order : ByteOrder) (bytes : List UInt8)
    (clean : replacement ∉ decode order bytes) : encode order (decode order bytes) = bytes := by
  unfold decode at clean ⊢
  rw [List.mem_append, not_or] at clean
  by_cases even : bytes.length % 2 = 0
  · obtain ⟨left, written, count⟩ := flatMap_unitBytes_units order bytes
    rw [List.length_eq_zero_iff.mp (count.trans even), List.append_nil] at written
    rw [if_pos even, List.append_nil, encode_eq,
      flatMap_unitsOf_decodeUnits _ (units_lt order bytes) clean.1, written]
  · rw [if_neg even] at clean
    exact absurd List.mem_cons_self clean.2

/-- Units start with the first character that they are read as, unless it is a replacement. -/
theorem unitsOf_prefix {values : List Nat} {c : Char} {rest : List Char}
    (small : ∀ value ∈ values, value < 0x10000) (starts : decodeUnits values = c :: rest)
    (clean : c ≠ replacement) : unitsOf c <+: values := by
  fun_cases decodeUnits values with
  | case1 => simp [decodeUnits] at starts
  | case2 high opens =>
    rw [decodeUnits, if_pos opens, List.cons.injEq] at starts
    exact absurd starts.1.symm clean
  | case3 high opens low others closes =>
    rw [decodeUnits, if_pos opens, if_pos closes, List.cons.injEq] at starts
    rw [← starts.1, unitsOf_pairChar opens closes]
    exact ⟨others, rfl⟩
  | case4 high opens low others notLow =>
    rw [decodeUnits, if_pos opens, if_neg notLow, List.cons.injEq] at starts
    exact absurd starts.1.symm clean
  | case5 low others notHigh isLow =>
    rw [decodeUnits.eq_def] at starts
    simp only [if_neg notHigh, if_pos isLow, List.cons.injEq] at starts
    exact absurd starts.1.symm clean
  | case6 value others notHigh notLow =>
    rw [decodeUnits.eq_def] at starts
    simp only [if_neg notHigh, if_neg notLow, List.cons.injEq] at starts
    rw [← starts.1, unitsOf_single (small value List.mem_cons_self) notHigh notLow]
    exact ⟨others, rfl⟩

/-- Bytes start with the first character that they are read as, unless it is a replacement. -/
theorem encode_prefix_of_decode {order : ByteOrder} {bytes : List UInt8} {c : Char}
    {rest : List Char} (starts : decode order bytes = c :: rest) (clean : c ≠ replacement) :
    encode order [c] <+: bytes := by
  obtain ⟨left, written, -⟩ := flatMap_unitBytes_units order bytes
  cases reading : decodeUnits (units order bytes) with
  | nil =>
    rw [decode, reading, List.nil_append] at starts
    split_ifs at starts
    rw [List.cons.injEq] at starts
    exact absurd starts.1.symm clean
  | cons first others =>
    rw [decode, reading, List.cons_append, List.cons.injEq] at starts
    obtain ⟨more, split⟩ :=
      unitsOf_prefix (units_lt order bytes) (reading.trans (by rw [starts.1])) clean
    rw [← split, List.flatMap_append, List.append_assoc] at written
    rw [encode_eq, List.flatMap_singleton]
    exact ⟨_, written⟩

/-- UTF-16 is exact in either byte order. -/
theorem utf16_exact (order : ByteOrder) :
    Exact (decode order) (fun text => some (encode order text)) :=
  Exact.of_total (decode_encode order) (encode_decode order)

end Utf16

namespace Utf32

/-- A character is read back from its four bytes, whatever follows them. -/
theorem decode_bytesOf_append (order : ByteOrder) (c : Char) (rest : List UInt8) :
    decode order (bytesOf order c ++ rest) = c :: decode order rest := by
  have valid : c.toNat.isValidChar := c.valid
  have range := char_valid c
  have first := toNat_byte (show c.toNat / 16777216 < 256 by omega)
  have second := toNat_byte (show c.toNat / 65536 % 256 < 256 by omega)
  have third := toNat_byte (show c.toNat / 256 % 256 < 256 by omega)
  have fourth := toNat_byte (show c.toNat % 256 < 256 by omega)
  have parts : ((c.toNat / 16777216 * 256 + c.toNat / 65536 % 256) * 256 +
      c.toNat / 256 % 256) * 256 + c.toNat % 256 = c.toNat := by omega
  cases order with
  | big =>
    simp only [bytesOf, List.cons_append, List.nil_append, decode, value, first, second, third,
      fourth, parts, charOf, if_pos valid, Char.ofNat_toNat]
  | little =>
    simp only [bytesOf, List.reverse_cons, List.reverse_nil, List.cons_append, List.nil_append,
      decode, value, first, second, third, fourth, parts, charOf, if_pos valid, Char.ofNat_toNat]

/-- The number that stands in four bytes is written as those bytes. -/
theorem bytesOf_value (order : ByteOrder) (first second third fourth : UInt8)
    (valid : (value order first second third fourth).isValidChar) :
    bytesOf order (Char.ofNat (value order first second third fourth)) =
      [first, second, third, fourth] := by
  have a := first.toNat_lt
  have b := second.toNat_lt
  have c := third.toNat_lt
  have d := fourth.toNat_lt
  unfold bytesOf
  rw [toNat_char valid]
  cases order with
  | big =>
    simp only [value]
    rw [byte_of_toNat first (by omega), byte_of_toNat second (by omega),
      byte_of_toNat third (by omega), byte_of_toNat fourth (by omega)]
  | little =>
    simp only [value, List.reverse_cons, List.reverse_nil, List.nil_append, List.cons_append]
    rw [byte_of_toNat first (by omega), byte_of_toNat second (by omega),
      byte_of_toNat third (by omega), byte_of_toNat fourth (by omega)]

/-- A text is read back from its bytes. -/
theorem decode_encode (order : ByteOrder) (text : List Char) :
    decode order (encode order text) = text := by
  induction text with
  | nil => rfl
  | cons c rest ih =>
    unfold encode at ih ⊢
    rw [List.flatMap_cons, decode_bytesOf_append, ih]

/-- Bytes read without a replacement character are the bytes of their reading. -/
theorem encode_decode (order : ByteOrder) (bytes : List UInt8)
    (clean : replacement ∉ decode order bytes) : encode order (decode order bytes) = bytes := by
  unfold encode
  fun_induction decode order bytes with
  | case1 first second third fourth rest ih =>
    rw [List.mem_cons, not_or] at clean
    have valid : (value order first second third fourth).isValidChar := by
      by_contra invalid
      exact clean.1 (by rw [charOf, if_neg invalid])
    rw [List.flatMap_cons, charOf, if_pos valid, bytesOf_value order _ _ _ _ valid, ih clean.2]
    rfl
  | case2 => rfl
  | case3 => exact absurd List.mem_cons_self clean

/-- UTF-32 is exact in either byte order. -/
theorem utf32_exact (order : ByteOrder) :
    Exact (decode order) (fun text => some (encode order text)) :=
  Exact.of_total (decode_encode order) (encode_decode order)

end Utf32

end CfmlTidy.Encoding
