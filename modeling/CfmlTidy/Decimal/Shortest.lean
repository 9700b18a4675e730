/-!
# Shortest decimals

The decimal with the fewest digits among those that read back as a given binary number, and of
these the one nearest to it. A binary number is `mantissa · 2 ^ exponent`; the decimals that read
back as it lie between the midpoints to its neighbours, and an even mantissa owns the midpoints.
All arithmetic is exact.
-/

namespace CfmlTidy.Decimal

/-- A positive binary number with the distance to the number below it. -/
structure Binary where
  /-- The digits. -/
  mantissa : Nat
  /-- The power of two that scales them. -/
  exponent : Int
  /-- Whether the number below is only half as far away as the number above. -/
  narrowBelow : Bool

/-- A decimal: `digits · 10 ^ scale`. -/
structure Scaled where
  /-- The digits as one number. -/
  digits : Nat
  /-- The power of ten that scales them. -/
  scale : Int
deriving Repr, DecidableEq

/-- A fraction of two naturals. -/
structure Fraction where
  /-- Numerator. -/
  num : Nat
  /-- Denominator. -/
  den : Nat

/-- `count · 2 ^ power` as a fraction. -/
def binaryFraction (count : Nat) (power : Int) : Fraction :=
  if 0 ≤ power then ⟨count * Nat.pow 2 power.toNat, 1⟩ else ⟨count, Nat.pow 2 (-power).toNat⟩

/-- The value in quarters of its last binary digit. -/
def Binary.value (binary : Binary) : Fraction :=
  binaryFraction (4 * binary.mantissa) (binary.exponent - 2)

/-- The midpoint to the number below. -/
def Binary.low (binary : Binary) : Fraction :=
  binaryFraction (4 * binary.mantissa - (if binary.narrowBelow then 1 else 2)) (binary.exponent - 2)

/-- The midpoint to the number above. -/
def Binary.high (binary : Binary) : Fraction :=
  binaryFraction (4 * binary.mantissa + 2) (binary.exponent - 2)

/-- Exact comparison of two fractions. -/
def Fraction.less (left right : Fraction) : Bool :=
  left.num * right.den < right.num * left.den

/-- A decimal as a fraction. -/
def Scaled.fraction (decimal : Scaled) : Fraction :=
  if 0 ≤ decimal.scale then ⟨decimal.digits * Nat.pow 10 decimal.scale.toNat, 1⟩
  else ⟨decimal.digits, Nat.pow 10 (-decimal.scale).toNat⟩

/-- Whether a decimal reads back as a binary number. -/
def Binary.owns (binary : Binary) (decimal : Scaled) : Bool :=
  let point := decimal.fraction
  if binary.mantissa % 2 = 0 then !point.less binary.low && !binary.high.less point
  else binary.low.less point && point.less binary.high

/-- The power of ten of the first digit of a positive fraction. -/
def Fraction.leadingPower (fraction : Fraction) : Int :=
  let guess : Int := (Nat.repr fraction.num).length - (Nat.repr fraction.den).length
  if (Scaled.fraction ⟨1, guess⟩).less fraction || !fraction.less (Scaled.fraction ⟨1, guess⟩) then
    guess
  else guess - 1

/-- The largest multiple of `10 ^ scale` not above a fraction. -/
def Fraction.floorAt (fraction : Fraction) (scale : Int) : Nat :=
  if 0 ≤ scale then fraction.num / (fraction.den * Nat.pow 10 scale.toNat)
  else fraction.num * Nat.pow 10 (-scale).toNat / fraction.den

/-- Twice the distance from the floor to a fraction, compared with one step of the grid: whether
the floor is the nearer of its two neighbours. An exact tie goes to the even one. -/
def Fraction.floorIsNearer (fraction : Fraction) (scale : Int) : Bool :=
  let below := fraction.floorAt scale
  let middle : Fraction :=
    if 0 ≤ scale then ⟨(2 * below + 1) * Nat.pow 10 scale.toNat, 2⟩
    else ⟨2 * below + 1, 2 * Nat.pow 10 (-scale).toNat⟩
  fraction.less middle || (!middle.less fraction && below % 2 = 0)

/-- The decimal on one grid that reads back, preferring the nearer neighbour. -/
def Binary.onGrid? (binary : Binary) (scale : Int) : Option Scaled :=
  let below : Scaled := ⟨binary.value.floorAt scale, scale⟩
  let above : Scaled := ⟨binary.value.floorAt scale + 1, scale⟩
  match binary.owns below, binary.owns above with
  | true, true => some (if binary.value.floorIsNearer scale then below else above)
  | true, false => some below
  | false, true => some above
  | false, false => none

/-- The first grid with a decimal that reads back, from `scale` down to `steps` grids below it. -/
def Binary.search (binary : Binary) (scale : Int) : Nat → Scaled
  | 0 => ⟨binary.value.floorAt scale, scale⟩
  | steps + 1 =>
    match binary.onGrid? scale with
    | some found => found
    | none => binary.search (scale - 1) steps

/-- The shortest decimal that reads back as a positive binary number with 53 binary digits; it
has at most 17 digits. -/
def Binary.shortest (binary : Binary) : Scaled :=
  binary.search binary.value.leadingPower 17

end CfmlTidy.Decimal
