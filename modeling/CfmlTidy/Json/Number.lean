import CfmlTidy.Decimal.Shortest
import CfmlTidy.Json.Basic

/-!
# JSON numbers

Reading and writing numbers. A double is read from its first twenty or so significant digits and
a power of ten, by one multiplication or division; it is written with the fewest digits that read
back, positionally while its first digit stands between 10 ^ -5 and 10 ^ 15.
-/

namespace CfmlTidy.Json

/-- Digits of a natural number. -/
def natText (value : Nat) : String := String.ofList (Nat.toDigits 10 value)

/-- Decimal digits of an integer. -/
def intText (value : Int) : String :=
  if value < 0 then "-" ++ natText value.natAbs else natText value.natAbs

/-- The largest unsigned 64-bit integer. -/
def maxUnsigned : Nat := 0xFFFFFFFFFFFFFFFF

/-- The binary number of the bits of a positive finite double. -/
def binaryOfBits (bits : UInt64) : Decimal.Binary :=
  let fraction : Nat := bits.toNat % 0x10000000000000
  let power : Nat := bits.toNat / 0x10000000000000 % 0x800
  if power = 0 then ⟨fraction, -1074, false⟩
  else ⟨0x10000000000000 + fraction, (power : Int) - 1075, fraction == 0 && 1 < power⟩

/-- The digits of a decimal and the power of ten of its first digit, without zeros at the end. -/
def significant (decimal : Decimal.Scaled) : List Char × Int :=
  let digits := Nat.toDigits 10 decimal.digits
  ((digits.reverse.dropWhile (· == '0')).reverse, decimal.scale + digits.length - 1)

/-- Digits with a point after the first `whole` of them, filled up with zeros. -/
def positional (digits : List Char) (power : Int) : List Char :=
  if power < 0 then '0' :: '.' :: (List.replicate ((-power).toNat - 1) '0' ++ digits)
  else
    let whole := power.toNat + 1
    let tail := digits.drop whole
    digits.take whole ++ List.replicate (whole - digits.length) '0' ++ '.' ::
      (if tail.isEmpty then ['0'] else tail)

/-- Digits with a point after the first and a signed power of ten. -/
def scientific (digits : List Char) (power : Int) : List Char :=
  let tail := digits.drop 1
  digits.take 1 ++ (if tail.isEmpty then [] else '.' :: tail) ++ 'e' ::
    (if power < 0 then '-' else '+') :: Nat.toDigits 10 power.natAbs

/-- The text of a finite double. -/
def realText (bits : UInt64) : String :=
  let sign := if bits.toNat / 0x8000000000000000 = 1 then "-" else ""
  let magnitude := bits.toNat % 0x8000000000000000
  if magnitude = 0 then sign ++ "0.0"
  else
    let (digits, power) := significant (binaryOfBits (UInt64.ofNat magnitude)).shortest
    sign ++ String.ofList
      (if -5 ≤ power ∧ power ≤ 15 then positional digits power else scientific digits power)

/-- A power of ten as a double. -/
def powerOfTen (power : Nat) : Float := Float.ofScientific 1 false power

/-- Divide by ten to a power that may exceed the range of doubles, in steps of 308. -/
def scaleDown (value : Float) (power steps : Nat) : Float :=
  match steps with
  | 0 => value
  | steps + 1 =>
    if power ≤ 308 then value / powerOfTen power
    else if value == 0.0 then value
    else scaleDown (value / powerOfTen 308) (power - 308) steps

/-- The double of a significand below 2 ^ 64 and a power of ten, unless it is out of range. -/
def scaled? (significand : Nat) (power : Int) : Option Float :=
  let value := Float.ofNat significand
  if 0 ≤ power then
    if power.toNat ≤ 308 then
      let result := value * powerOfTen power.toNat
      if result.isInf then none else some result
    else if value == 0.0 then some value
    else none
  else some (scaleDown value power.natAbs 4)

/-- A double with a sign, by its bits. -/
def signed (negative : Bool) (value : Float) : Json :=
  real (if negative then -value else value).toBits

/-- Value of a decimal digit. -/
def digitValue (c : Char) : Nat := c.toNat - '0'.toNat

/-- Whether a character is a decimal digit. -/
def isDigit (c : Char) : Bool := '0' ≤ c && c ≤ '9'

/-- Take digits into a significand while it stays below 2 ^ 64; the digits not taken follow. -/
def takeDigits : (significand taken : Nat) → List Char → Nat × Nat × List Char
  | significand, taken, [] => (significand, taken, [])
  | significand, taken, c :: rest =>
    if significand * 10 + digitValue c ≤ maxUnsigned then
      takeDigits (significand * 10 + digitValue c) (taken + 1) rest
    else (significand, taken, c :: rest)

/-- The parts of a number as written. -/
structure NumberText where
  /-- A minus sign in front. -/
  negative : Bool
  /-- Digits before the point. -/
  whole : List Char
  /-- Digits after the point, if there is one. -/
  fraction : Option (List Char)
  /-- Sign and digits of the power of ten, if there is one. -/
  power : Option (Bool × List Char)

/-- The exponent part of a number: nothing, or a mark, a sign and digits. -/
def exponentPart? : List Char → Option (Option (Bool × List Char))
  | [] => some none
  | c :: rest =>
    if c == 'e' || c == 'E' then
      let (negative, digits) :=
        match rest with
        | '-' :: digits => (true, digits)
        | '+' :: digits => (false, digits)
        | digits => (false, digits)
      if !digits.isEmpty && digits.all isDigit then some (some (negative, digits)) else none
    else none

/-- The parts of a number, unless it is malformed: no digits before or after the point, a zero in
front of other digits, or an exponent without digits. -/
def numberParts? (text : List Char) : Option NumberText := do
  let negative := text.head? == some '-'
  let body := if negative then text.drop 1 else text
  let whole := body.takeWhile isDigit
  let rest := body.dropWhile isDigit
  if whole.isEmpty || (1 < whole.length && whole.head? == some '0') then none
  else
    match rest with
    | '.' :: after =>
      let fraction := after.takeWhile isDigit
      if fraction.isEmpty then none
      else
        let power ← exponentPart? (after.dropWhile isDigit)
        some ⟨negative, whole, some fraction, power⟩
    | _ =>
      let power ← exponentPart? rest
      some ⟨negative, whole, none, power⟩

/-- The largest power of ten that is read digit by digit. -/
def maxPower : Nat := 0x7FFFFFFF

/-- A power of ten clamped to 32 signed bits. -/
def clampPower (power : Int) : Int :=
  if power < -0x80000000 then -0x80000000 else if 0x7FFFFFFF < power then 0x7FFFFFFF else power

/-- The number of its parts, unless it is out of the range of doubles. -/
def ofParts? (parts : NumberText) : Option Json :=
  let (significand, _, dropped) := takeDigits 0 0 parts.whole
  if dropped.isEmpty && parts.fraction.isNone && parts.power.isNone then
    if !parts.negative then some (int significand)
    else if 0 < significand ∧ significand ≤ 0x8000000000000000 then some (int (-significand))
    else some (signed true (Float.ofNat significand))
  else
    let (full, taken, _) := takeDigits significand 0 (parts.fraction.getD [])
    let base : Int := (dropped.length : Int) - taken
    match parts.power with
    | none => (scaled? full base).map (signed parts.negative)
    | some (down, digits) =>
      let power := digits.foldl (fun sum c => sum * 10 + digitValue c) 0
      if maxPower < power then
        if full ≠ 0 ∧ !down then none else some (signed parts.negative 0.0)
      else
        (scaled? full (clampPower (if down then base - power else base + power))).map
          (signed parts.negative)

/-- The number written in some characters. -/
def ofNumberText? (text : List Char) : Option Json :=
  (numberParts? text).bind ofParts?

end CfmlTidy.Json
