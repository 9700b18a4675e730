import CfmlTidy.Encoding.Utf8

/-!
# One byte per character

ISO-8859-1, windows-1252 and US-ASCII. Each is a partial map between bytes and characters: a byte
without a character reads as the replacement character, and a text with a character that has no
byte cannot be written.
-/

namespace CfmlTidy.Encoding.SingleByte

/-- The characters of the windows-1252 bytes from 80 to 9F; five bytes have none. -/
def windowsHigh : List (Option Char) :=
  [some '\u20AC', none, some '\u201A', some '\u0192', some '\u201E', some '\u2026',
    some '\u2020', some '\u2021', some '\u02C6', some '\u2030', some '\u0160', some '\u2039',
    some '\u0152', none, some '\u017D', none, none, some '\u2018', some '\u2019', some '\u201C',
    some '\u201D', some '\u2022', some '\u2013', some '\u2014', some '\u02DC', some '\u2122',
    some '\u0161', some '\u203A', some '\u0153', none, some '\u017E', some '\u0178']

/-- The character of an ISO-8859-1 byte: the one with the same number. -/
def latinChar (byte : UInt8) : Char := Char.ofNat byte.toNat

/-- The character of a windows-1252 byte. -/
def windowsChar (byte : UInt8) : Char :=
  if 0x80 ≤ byte && byte ≤ 0x9F then
    ((windowsHigh[byte.toNat - 0x80]?).join).getD replacement
  else latinChar byte

/-- The character of a US-ASCII byte. -/
def asciiChar (byte : UInt8) : Char :=
  if byte < 0x80 then latinChar byte else replacement

/-- The ISO-8859-1 byte of a character. -/
def latinByte? (c : Char) : Option UInt8 :=
  if c.toNat ≤ 0xFF then some (UInt8.ofNat c.toNat) else none

/-- The windows-1252 byte of a character. -/
def windowsByte? (c : Char) : Option UInt8 :=
  if 0x80 ≤ c.toNat && c.toNat ≤ 0x9F then none
  else if c.toNat ≤ 0xFF then some (UInt8.ofNat c.toNat)
  else (windowsHigh.findIdx? (· == some c)).map fun index => UInt8.ofNat (0x80 + index)

/-- The US-ASCII byte of a character. -/
def asciiByte? (c : Char) : Option UInt8 :=
  if c.toNat < 0x80 then some (UInt8.ofNat c.toNat) else none

end CfmlTidy.Encoding.SingleByte
