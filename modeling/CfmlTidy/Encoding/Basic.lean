import CfmlTidy.Encoding.SingleByte
import CfmlTidy.Encoding.Wide
import CfmlTidy.Text.Blank
import CfmlTidy.Text.Letter

/-!
# Encodings

The nine encodings that source files come in: their names, their byte-order marks, and reading
and writing text in each.
-/

namespace CfmlTidy

/-- An encoding of text as bytes. -/
inductive Encoding where
  /-- UTF-8. -/
  | utf8
  /-- UTF-16 without a byte-order mark, read most significant byte first. -/
  | utf16
  /-- UTF-16, most significant byte first. -/
  | utf16be
  /-- UTF-16, least significant byte first. -/
  | utf16le
  /-- UTF-32, most significant byte first. -/
  | utf32be
  /-- UTF-32, least significant byte first. -/
  | utf32le
  /-- ISO-8859-1. -/
  | latin1
  /-- windows-1252. -/
  | windows1252
  /-- US-ASCII. -/
  | ascii
deriving Repr, DecidableEq, Inhabited

namespace Encoding

/-- The name an encoding is reported under. -/
def name : Encoding → String
  | utf8 => "UTF-8"
  | utf16 => "UTF-16"
  | utf16be => "UTF-16BE"
  | utf16le => "UTF-16LE"
  | utf32be => "UTF-32BE"
  | utf32le => "UTF-32LE"
  | latin1 => "ISO-8859-1"
  | windows1252 => "windows-1252"
  | ascii => "US-ASCII"

/-- The spelling of an encoding in trace messages. -/
def label : Encoding → String
  | utf8 => "Utf8"
  | utf16 => "Utf16"
  | utf16be => "Utf16Be"
  | utf16le => "Utf16Le"
  | utf32be => "Utf32Be"
  | utf32le => "Utf32Le"
  | latin1 => "Latin1"
  | windows1252 => "Windows1252"
  | ascii => "Ascii"

/-- The spellings under which an encoding is found, besides case, blanks around the name and
underscores in place of hyphens. -/
def aliases : List (String × Encoding) :=
  [("utf-8", utf8), ("utf8", utf8), ("utf-16", utf16), ("utf16", utf16), ("utf-16be", utf16be),
    ("utf-16le", utf16le), ("utf-32", utf32be), ("utf-32be", utf32be), ("utf-32le", utf32le),
    ("iso-8859-1", latin1), ("iso8859-1", latin1), ("latin1", latin1), ("latin-1", latin1),
    ("windows-1252", windows1252), ("cp1252", windows1252), ("us-ascii", ascii),
    ("ascii", ascii)]

/-- The encoding of a name or alias. -/
def ofName? (name : String) : Option Encoding :=
  let spelling := (Text.trim name.toList).map fun c => if c = '_' then '-' else Text.lower c
  aliases.lookup (String.ofList spelling)

/-- The bytes written ahead of text in an encoding; empty for encodings without a mark. -/
def mark : Encoding → List UInt8
  | utf8 => [0xEF, 0xBB, 0xBF]
  | utf16 | utf16be => [0xFE, 0xFF]
  | utf16le => [0xFF, 0xFE]
  | utf32be => [0x00, 0x00, 0xFE, 0xFF]
  | utf32le => [0xFF, 0xFE, 0x00, 0x00]
  | latin1 | windows1252 | ascii => []

/-- The text of some bytes. -/
def decode : Encoding → List UInt8 → List Char
  | utf8, bytes => Utf8.decode bytes
  | utf16, bytes | utf16be, bytes => Utf16.decode .big bytes
  | utf16le, bytes => Utf16.decode .little bytes
  | utf32be, bytes => Utf32.decode .big bytes
  | utf32le, bytes => Utf32.decode .little bytes
  | latin1, bytes => bytes.map SingleByte.latinChar
  | windows1252, bytes => bytes.map SingleByte.windowsChar
  | ascii, bytes => bytes.map SingleByte.asciiChar

/-- The bytes of a text, unless it has a character that the encoding cannot hold. -/
def encode? : Encoding → List Char → Option (List UInt8)
  | utf8, text => some (Utf8.encode text)
  | utf16, text | utf16be, text => some (Utf16.encode .big text)
  | utf16le, text => some (Utf16.encode .little text)
  | utf32be, text => some (Utf32.encode .big text)
  | utf32le, text => some (Utf32.encode .little text)
  | latin1, text => text.mapM SingleByte.latinByte?
  | windows1252, text => text.mapM SingleByte.windowsByte?
  | ascii, text => text.mapM SingleByte.asciiByte?

end Encoding

end CfmlTidy
