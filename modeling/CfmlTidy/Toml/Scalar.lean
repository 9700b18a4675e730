import CfmlTidy.Toml.Moment

/-!
# TOML scalars

Truth values, integers, floats and moments as they are written without quotes. Floats that are no
numbers become null.
-/

namespace CfmlTidy.Toml

open CfmlTidy.Json (isDigit hexValue?)

/-- Digits with underscores between them, without the underscores. -/
def joinDigits? (digit : Char → Bool) : List Char → Option (List Char)
  | [] => none
  | [c] => if digit c then some [c] else none
  | c :: '_' :: rest => if digit c then (joinDigits? digit rest).map (c :: ·) else none
  | c :: next :: rest => if digit c then (joinDigits? digit (next :: rest)).map (c :: ·) else none

/-- Whether a character is a digit in a base. -/
def isDigitOf (base : Nat) (c : Char) : Bool := (hexValue? c).any (· < base)

/-- An integer of 64 signed bits. -/
def fitted? (value : Int) : Option Json :=
  if -0x8000000000000000 ≤ value && value < 0x8000000000000000 then some (.int value) else none

/-- An integer after a mark for its base. -/
def basedInt? (base : Nat) (text : List Char) : Option Json := do
  let digits ← joinDigits? (isDigitOf base) text
  fitted? (natOf base digits)

/-- Decimal digits without a zero in front of others. -/
def wholeDigits? (text : List Char) : Option (List Char) := do
  let digits ← joinDigits? isDigit text
  if 1 < digits.length && digits.head? == some '0' then none else some digits

/-- A sign and what follows it. -/
def splitSign : List Char → Bool × List Char
  | '-' :: rest => (true, rest)
  | '+' :: rest => (false, rest)
  | rest => (false, rest)

/-- A decimal integer. -/
def decimalInt? (text : List Char) : Option Json := do
  let (negative, body) := splitSign text
  let digits ← wholeDigits? body
  fitted? (if negative then -(natOf 10 digits : Int) else natOf 10 digits)

/-- The double nearest to a decimal, unless it is out of range. -/
def nearest? (negative : Bool) (digits : List Char) (power : Int) : Option Json :=
  let mantissa := natOf 10 digits
  let value :=
    if mantissa = 0 then 0.0
    else if 400 < power + digits.length then Float.ofScientific 1 false 400
    else if power + digits.length < -400 then 0.0
    else Float.ofScientific mantissa (power < 0) power.natAbs
  if value.isInf then none else some (Json.signed negative value)

/-- A float: digits, then a point with digits, an exponent, or both. -/
def float? (text : List Char) : Option Json := do
  let (negative, body) := splitSign text
  let isMark := fun (c : Char) => c == 'e' || c == 'E'
  let mantissa := body.takeWhile fun c => !isMark c
  let power ← match body.dropWhile fun c => !isMark c with
    | [] => some (0 : Int)
    | _ :: exponent => do
      let (down, digits) := splitSign exponent
      let joined ← joinDigits? isDigit digits
      some (if down then -(natOf 10 joined : Int) else natOf 10 joined)
  match mantissa.dropWhile (· != '.') with
  | [] => do
    if mantissa.length = body.length then none
    let whole ← wholeDigits? mantissa
    nearest? negative whole power
  | _ :: after => do
    let whole ← wholeDigits? (mantissa.takeWhile (· != '.'))
    let fraction ← joinDigits? isDigit after
    nearest? negative (whole ++ fraction) (power - fraction.length)

/-- The value of a scalar without quotes. -/
def scalar? (text : List Char) : Option Json :=
  if text = "true".toList then some (.bool true)
  else if text = "false".toList then some (.bool false)
  else
    match (splitSign text).2 with
    | ['i', 'n', 'f'] | ['n', 'a', 'n'] => some .null
    | _ =>
      match text with
      | '0' :: 'x' :: rest => basedInt? 16 rest
      | '0' :: 'o' :: rest => basedInt? 8 rest
      | '0' :: 'b' :: rest => basedInt? 2 rest
      | _ =>
        match Moment.read? text with
        | some moment => some moment.toJson
        | none =>
          match decimalInt? text with
          | some value => some value
          | none => float? text

end CfmlTidy.Toml
