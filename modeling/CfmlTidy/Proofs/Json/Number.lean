import Mathlib
import CfmlTidy.Json.Reader

/-!
# Texts of numbers

A text that is read as a number consists of the characters of numbers and starts with a digit or a
minus sign. An integer within 64 bits is read back from its digits: they are never led by a zero,
and all of them are taken into the significand.
-/

namespace CfmlTidy.Json

variable {text digits : List Char}

/-- Digits of numbers are the decimal digits. -/
theorem isDigit_eq (c : Char) : isDigit c = c.isDigit := by
  simp only [isDigit, Char.isDigit, Char.le_def, ge_iff_le]

/-- A digit is a character of a number. -/
theorem isNumberChar_of_isDigit {c : Char} (digit : isDigit c = true) : isNumberChar c = true := by
  simp [isNumberChar, digit]

/-- The exponent part of a number has no characters but those of numbers. -/
theorem isNumberChar_of_exponentPart? {power : Option (Bool × List Char)}
    (read : exponentPart? text = some power) : ∀ c ∈ text, isNumberChar c = true := by
  cases text with
  | nil => simp
  | cons mark rest =>
    unfold exponentPart? at read
    dsimp only at read
    split_ifs at read with marked filled
    have first : isNumberChar mark = true := by
      rcases Bool.or_eq_true_iff.mp marked with lower | upper
      · rw [beq_iff_eq.mp lower]; rfl
      · rw [beq_iff_eq.mp upper]; rfl
    have all := List.all_eq_true.mp (Bool.and_eq_true_iff.mp filled).2
    clear read filled
    refine List.forall_mem_cons.mpr ⟨first, ?_⟩
    split at all
    · exact List.forall_mem_cons.mpr ⟨rfl, fun c inside => isNumberChar_of_isDigit (all c inside)⟩
    · exact List.forall_mem_cons.mpr ⟨rfl, fun c inside => isNumberChar_of_isDigit (all c inside)⟩
    · exact fun c inside => isNumberChar_of_isDigit (all c inside)

/-- What is read as a number behind its sign starts with a digit. -/
theorem numberParts?_body {parts : NumberText} (read : numberParts? text = some parts) :
    ∃ digit rest, (if text.head? == some '-' then text.drop 1 else text) = digit :: rest ∧
      isDigit digit = true ∧ ∀ c ∈ rest, isNumberChar c = true := by
  unfold numberParts? at read
  dsimp only at read
  generalize (if text.head? == some '-' then text.drop 1 else text) = body at read ⊢
  split_ifs at read with refused
  have filled : body.takeWhile isDigit ≠ [] := by
    intro empty
    simp [empty] at refused
  have after : ∀ c ∈ body.dropWhile isDigit, isNumberChar c = true := by
    split at read
    · rename_i rest point
      split_ifs at read
      obtain ⟨power, exponent, -⟩ := Option.bind_eq_some_iff.mp read
      rw [point]
      refine List.forall_mem_cons.mpr ⟨rfl, ?_⟩
      rw [← List.takeWhile_append_dropWhile (p := isDigit) (l := rest)]
      refine List.forall_mem_append.mpr ⟨?_, isNumberChar_of_exponentPart? exponent⟩
      intro c inside
      exact isNumberChar_of_isDigit (List.mem_takeWhile_imp inside)
    · obtain ⟨power, exponent, -⟩ := Option.bind_eq_some_iff.mp read
      exact isNumberChar_of_exponentPart? exponent
  obtain ⟨digit, digits, front⟩ := List.exists_cons_of_ne_nil filled
  have front_digits : ∀ c ∈ digit :: digits, isDigit c = true := by
    rw [← front]
    exact fun c inside => List.mem_takeWhile_imp inside
  refine ⟨digit, digits ++ body.dropWhile isDigit, ?_, front_digits digit List.mem_cons_self, ?_⟩
  · rw [← List.cons_append, ← front, List.takeWhile_append_dropWhile]
  · refine List.forall_mem_append.mpr ⟨fun c inside => ?_, after⟩
    exact isNumberChar_of_isDigit (front_digits c (List.mem_cons_of_mem digit inside))

/-- A text that is read as a number starts with a digit or a minus sign, and what follows are
characters of numbers. -/
theorem chars_of_ofNumberText? {value : Json} (read : ofNumberText? text = some value) :
    ∃ first rest, text = first :: rest ∧ (isDigit first || first == '-') = true ∧
      ∀ c ∈ rest, isNumberChar c = true := by
  obtain ⟨parts, split, -⟩ := Option.bind_eq_some_iff.mp read
  obtain ⟨digit, rest, body, isNumber, others⟩ := numberParts?_body split
  by_cases negative : (text.head? == some '-') = true
  · rw [if_pos negative] at body
    obtain ⟨after, rfl⟩ : ∃ after, text = '-' :: after :=
      ⟨_, List.eq_cons_of_mem_head? (beq_iff_eq.mp negative)⟩
    obtain rfl : after = digit :: rest := body
    exact ⟨'-', digit :: rest, rfl, by decide,
      List.forall_mem_cons.mpr ⟨isNumberChar_of_isDigit isNumber, others⟩⟩
  · rw [if_neg negative] at body
    exact ⟨digit, rest, body, by rw [isNumber]; rfl, others⟩

/-- A significand only grows as digits are taken. -/
theorem le_ofDigitChars (digits : List Char) (significand : Nat) :
    significand ≤ Nat.ofDigitChars 10 digits significand := by
  induction digits generalizing significand with
  | nil => exact le_refl significand
  | cons c rest ih =>
    rw [Nat.ofDigitChars_cons]
    have grown := ih (10 * significand + (c.toNat - '0'.toNat))
    omega

/-- Digits of a number within 64 bits are all taken. -/
theorem takeDigits_eq {significand : Nat} (taken : Nat)
    (bound : Nat.ofDigitChars 10 digits significand ≤ maxUnsigned) :
    takeDigits significand taken digits =
      (Nat.ofDigitChars 10 digits significand, taken + digits.length, []) := by
  induction digits generalizing significand taken with
  | nil => rfl
  | cons c rest ih =>
    have grown : Nat.ofDigitChars 10 (c :: rest) significand =
        Nat.ofDigitChars 10 rest (significand * 10 + digitValue c) := by
      rw [Nat.ofDigitChars_cons, Nat.mul_comm]
      rfl
    rw [grown] at bound ⊢
    have within : significand * 10 + digitValue c ≤ maxUnsigned :=
      (le_ofDigitChars rest _).trans bound
    have count : taken + 1 + rest.length = taken + (c :: rest).length := by
      rw [List.length_cons]
      omega
    rw [takeDigits, if_pos within, ih (taken + 1) bound, count]

/-- The digits of a number are led by a zero for zero alone. -/
theorem eq_zero_of_head?_toDigits {value : Nat} (led : (Nat.toDigits 10 value).head? = some '0') :
    value = 0 := by
  induction value using Nat.strong_induction_on with
  | _ value ih =>
    by_cases small : value < 10
    · rw [Nat.toDigits_of_lt_base small, List.head?_cons, Option.some.injEq] at led
      interval_cases value <;> first | rfl | exact absurd led (by decide)
    · have large : 10 ≤ value := not_lt.mp small
      rw [Nat.toDigits_of_base_le (by decide) large,
        List.head?_append_of_ne_nil _ Nat.toDigits_ne_nil] at led
      have := ih (value / 10) (by omega) led
      omega

/-- Digits that no zero leads, with or without a sign, are the whole part of a number. -/
theorem numberParts?_digits (negative : Bool) (filled : digits ≠ [])
    (all : ∀ c ∈ digits, isDigit c = true) (led : digits.head? = some '0' → digits.length = 1) :
    numberParts? (if negative then '-' :: digits else digits) =
      some ⟨negative, digits, none, none⟩ := by
  have whole : digits.takeWhile isDigit = digits := List.takeWhile_eq_self_iff.mpr all
  have nothing : digits.dropWhile isDigit = [] := List.dropWhile_eq_nil_iff.mpr all
  have accepted : ¬ (digits.isEmpty || (1 < digits.length && digits.head? == some '0')) = true := by
    simp only [Bool.or_eq_true, List.isEmpty_iff, filled, false_or, Bool.and_eq_true,
      decide_eq_true_eq, beq_iff_eq, not_and]
    intro several zero
    have := led zero
    omega
  unfold numberParts?
  cases negative with
  | true => simp [whole, nothing, accepted, exponentPart?]
  | false =>
    have unsigned : (digits.head? == some '-') = false := by
      cases digits with
      | nil => contradiction
      | cons c rest =>
        have digit := all c List.mem_cons_self
        simp only [List.head?_cons, beq_eq_false_iff_ne, ne_eq, Option.some.injEq]
        rintro rfl
        contradiction
    simp [unsigned, whole, nothing, accepted, exponentPart?]

/-- An integer within 64 bits is read back from its text. -/
theorem ofNumberText?_intText {value : Int} (least : -0x8000000000000000 ≤ value)
    (greatest : value ≤ maxUnsigned) :
    ofNumberText? (intText value).toList = some (int value) := by
  have all : ∀ c ∈ Nat.toDigits 10 value.natAbs, isDigit c = true := by
    intro c inside
    rw [isDigit_eq]
    exact Nat.isDigit_of_mem_toDigits (by decide) (by decide) inside
  have led (zero : (Nat.toDigits 10 value.natAbs).head? = some '0') :
      (Nat.toDigits 10 value.natAbs).length = 1 := by
    rw [eq_zero_of_head?_toDigits zero]
    rfl
  have amount : Nat.ofDigitChars 10 (Nat.toDigits 10 value.natAbs) 0 = value.natAbs :=
    Nat.ofDigitChars_toDigits (by decide) (by decide)
  have bound : Nat.ofDigitChars 10 (Nat.toDigits 10 value.natAbs) 0 ≤ maxUnsigned := by
    rw [amount]
    unfold maxUnsigned at greatest ⊢
    omega
  have texts : (intText value).toList =
      if decide (value < 0) then '-' :: Nat.toDigits 10 value.natAbs
      else Nat.toDigits 10 value.natAbs := by
    unfold intText natText
    by_cases negative : value < 0 <;> simp [negative]
  rw [ofNumberText?, texts, numberParts?_digits _ Nat.toDigits_ne_nil all led]
  simp only [Option.bind_some, ofParts?, takeDigits_eq 0 bound, amount, List.isEmpty_nil,
    Option.isNone_none, Bool.and_self, if_true]
  by_cases negative : value < 0
  · have sized : 0 < value.natAbs ∧ value.natAbs ≤ 0x8000000000000000 := by omega
    have back : -(value.natAbs : Int) = value := by omega
    simp only [negative, decide_true, Bool.not_true, Bool.false_eq_true, if_false, if_pos sized,
      back]
  · have back : (value.natAbs : Int) = value := by omega
    simp only [negative, decide_false, Bool.not_false, if_true, back]

end CfmlTidy.Json
