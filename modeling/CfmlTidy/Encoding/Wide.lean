import CfmlTidy.Encoding.Utf8

/-!
# UTF-16 and UTF-32

Text as units of two or four bytes, in either byte order. Reading turns an unpaired surrogate, a
value that is no character, and bytes left over at the end into the replacement character.
-/

namespace CfmlTidy.Encoding

/-- The order of the bytes of a unit. -/
inductive ByteOrder where
  /-- Most significant byte first. -/
  | big
  /-- Least significant byte first. -/
  | little
deriving Repr, DecidableEq

namespace Utf16

/-- The unit of two bytes in file order. -/
def unit (order : ByteOrder) (first second : UInt8) : Nat :=
  match order with
  | .big => first.toNat * 256 + second.toNat
  | .little => second.toNat * 256 + first.toNat

/-- The two bytes of a unit in file order. -/
def unitBytes (order : ByteOrder) (value : Nat) : List UInt8 :=
  match order with
  | .big => [UInt8.ofNat (value / 256), UInt8.ofNat (value % 256)]
  | .little => [UInt8.ofNat (value % 256), UInt8.ofNat (value / 256)]

/-- The units of a character: itself, or a pair of surrogates from U+10000 on. -/
def unitsOf (c : Char) : List Nat :=
  if c.toNat < 0x10000 then [c.toNat]
  else [0xD800 + (c.toNat - 0x10000) / 0x400, 0xDC00 + (c.toNat - 0x10000) % 0x400]

/-- A unit that opens a surrogate pair. -/
def isHigh (value : Nat) : Bool := 0xD800 ≤ value && value < 0xDC00

/-- A unit that closes a surrogate pair. -/
def isLow (value : Nat) : Bool := 0xDC00 ≤ value && value < 0xE000

/-- The character of a surrogate pair. -/
def pairChar (high low : Nat) : Char :=
  Char.ofNat (0x10000 + (high - 0xD800) * 0x400 + (low - 0xDC00))

/-- The text of a list of units. -/
def decodeUnits : List Nat → List Char
  | [] => []
  | value :: rest =>
    if isHigh value then
      match rest with
      | [] => [replacement]
      | low :: afterLow =>
        if isLow low then pairChar value low :: decodeUnits afterLow
        else replacement :: decodeUnits (low :: afterLow)
    else if isLow value then replacement :: decodeUnits rest
    else Char.ofNat value :: decodeUnits rest
termination_by units => units.length

/-- The complete units of some bytes. -/
def units (order : ByteOrder) : List UInt8 → List Nat
  | first :: second :: rest => unit order first second :: units order rest
  | _ => []

/-- The text of some bytes. -/
def decode (order : ByteOrder) (bytes : List UInt8) : List Char :=
  decodeUnits (units order bytes) ++ (if bytes.length % 2 = 0 then [] else [replacement])

/-- The bytes of a text. -/
def encode (order : ByteOrder) (text : List Char) : List UInt8 :=
  text.flatMap fun c => (unitsOf c).flatMap (unitBytes order)

end Utf16

namespace Utf32

/-- The value of four bytes in file order. -/
def value (order : ByteOrder) (first second third fourth : UInt8) : Nat :=
  match order with
  | .big => ((first.toNat * 256 + second.toNat) * 256 + third.toNat) * 256 + fourth.toNat
  | .little => ((fourth.toNat * 256 + third.toNat) * 256 + second.toNat) * 256 + first.toNat

/-- The four bytes of a character in file order. -/
def bytesOf (order : ByteOrder) (c : Char) : List UInt8 :=
  let bytes := [UInt8.ofNat (c.toNat / 16777216), UInt8.ofNat (c.toNat / 65536 % 256),
    UInt8.ofNat (c.toNat / 256 % 256), UInt8.ofNat (c.toNat % 256)]
  match order with
  | .big => bytes
  | .little => bytes.reverse

/-- The character of a value, or the replacement character for a value that is none. -/
def charOf (value : Nat) : Char :=
  if value.isValidChar then Char.ofNat value else replacement

/-- The text of some bytes; one to three bytes left over become one replacement character. -/
def decode (order : ByteOrder) : List UInt8 → List Char
  | first :: second :: third :: fourth :: rest =>
    charOf (value order first second third fourth) :: decode order rest
  | [] => []
  | _ => [replacement]

/-- The bytes of a text. -/
def encode (order : ByteOrder) (text : List Char) : List UInt8 :=
  text.flatMap (bytesOf order)

end Utf32

end CfmlTidy.Encoding
