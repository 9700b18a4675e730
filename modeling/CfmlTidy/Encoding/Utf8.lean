/-!
# UTF-8

Writing text as UTF-8 bytes and reading bytes back. Reading never fails: each maximal piece of
bytes that no character can start with becomes one replacement character.
-/

namespace CfmlTidy.Encoding

/-- The character that stands for bytes that could not be read. -/
def replacement : Char := '\uFFFD'

namespace Utf8

/-- The bytes of a text. -/
def encode (text : List Char) : List UInt8 :=
  text.flatMap String.utf8EncodeChar

/-- A byte that continues a character. -/
def isContinuation (byte : UInt8) : Bool :=
  0x80 ≤ byte && byte ≤ 0xBF

/-- Number of bytes that a first byte announces; zero for a byte that starts no character. -/
def width (lead : UInt8) : Nat :=
  if lead < 0x80 then 1
  else if 0xC2 ≤ lead && lead ≤ 0xDF then 2
  else if 0xE0 ≤ lead && lead ≤ 0xEF then 3
  else if 0xF0 ≤ lead && lead ≤ 0xF4 then 4
  else 0

/-- Whether a second byte may follow a first one: a continuation that yields neither an overlong
form, a surrogate, nor a value beyond U+10FFFF. -/
def isSecond (lead second : UInt8) : Bool :=
  if lead = 0xE0 then 0xA0 ≤ second && second ≤ 0xBF
  else if lead = 0xED then 0x80 ≤ second && second ≤ 0x9F
  else if lead = 0xF0 then 0x90 ≤ second && second ≤ 0xBF
  else if lead = 0xF4 then 0x80 ≤ second && second ≤ 0x8F
  else isContinuation second

/-- The six payload bits of a continuation byte. -/
def payload (byte : UInt8) : Nat := byte.toNat % 64

/-- The character of two bytes. -/
def char2 (first second : UInt8) : Char :=
  Char.ofNat (first.toNat % 32 * 64 + payload second)

/-- The character of three bytes. -/
def char3 (first second third : UInt8) : Char :=
  Char.ofNat (first.toNat % 16 * 4096 + payload second * 64 + payload third)

/-- The character of four bytes. -/
def char4 (first second third fourth : UInt8) : Char :=
  Char.ofNat
    (first.toNat % 8 * 262144 + payload second * 4096 + payload third * 64 + payload fourth)

/-- The text of some bytes, with one replacement character per maximal invalid piece. -/
def decode : List UInt8 → List Char
  | [] => []
  | first :: afterFirst =>
    match width first with
    | 1 => Char.ofNat first.toNat :: decode afterFirst
    | 2 =>
      match afterFirst with
      | second :: afterSecond =>
        if isSecond first second then char2 first second :: decode afterSecond
        else replacement :: decode (second :: afterSecond)
      | [] => [replacement]
    | 3 =>
      match afterFirst with
      | second :: afterSecond =>
        if isSecond first second then
          match afterSecond with
          | third :: afterThird =>
            if isContinuation third then char3 first second third :: decode afterThird
            else replacement :: decode (third :: afterThird)
          | [] => [replacement]
        else replacement :: decode (second :: afterSecond)
      | [] => [replacement]
    | 4 =>
      match afterFirst with
      | second :: afterSecond =>
        if isSecond first second then
          match afterSecond with
          | third :: afterThird =>
            if isContinuation third then
              match afterThird with
              | fourth :: afterFourth =>
                if isContinuation fourth then
                  char4 first second third fourth :: decode afterFourth
                else replacement :: decode (fourth :: afterFourth)
              | [] => [replacement]
            else replacement :: decode (third :: afterThird)
          | [] => [replacement]
        else replacement :: decode (second :: afterSecond)
      | [] => [replacement]
    | _ => replacement :: decode afterFirst
termination_by bytes => bytes.length

end Utf8

end CfmlTidy.Encoding
