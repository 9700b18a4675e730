import CfmlTidy.Encoding.Basic
import CfmlTidy.Text.Class

/-!
# Detection of encodings

The encoding of a file is announced by a byte-order mark or found by probing a list of
candidates: the first whose reading looks like text wins. When none does, a fallback is used,
and such a file cannot be written back.
-/

namespace CfmlTidy

/-- How the encoding of some bytes was found. -/
inductive Detection where
  /-- By a byte-order mark. -/
  | marked (encoding : Encoding)
  /-- By probing. -/
  | probed (encoding : Encoding)
  /-- Not at all. -/
  | fallback
deriving Repr, DecidableEq, Inhabited

namespace Encoding

/-- The encodings probed when there is no byte-order mark, in order. -/
def candidates : List Encoding :=
  [utf8, utf16, utf16be, utf16le, latin1, windows1252, ascii]

/-- The encodings found by their mark. The mark of UTF-32LE starts with the mark of UTF-16LE, so
it is tried first. -/
def marked : List Encoding :=
  [utf8, utf32be, utf32le, utf16be, utf16le]

/-- The encoding whose byte-order mark some bytes start with. -/
def ofMark? (bytes : List UInt8) : Option Encoding :=
  marked.find? fun encoding => encoding.mark.isPrefixOf bytes

/-- A control character other than tab, line feed and carriage return. -/
def isStray (c : Char) : Bool :=
  Text.isControl c && c != '\t' && c != '\n' && c != '\r'

/-- Text without replacement characters in which fewer than one character in twenty is a stray
control character. The empty text is plausible. -/
def isPlausible (text : List Char) : Bool :=
  !text.contains replacement && (text.isEmpty || 20 * text.countP isStray < text.length)

/-- How the encoding of some bytes is found. -/
def detect (bytes : List UInt8) : Detection :=
  match ofMark? bytes with
  | some encoding => .marked encoding
  | none =>
    match candidates.find? fun encoding => isPlausible (encoding.decode bytes) with
    | some encoding => .probed encoding
    | none => .fallback

/-- The first candidate with a plausible reading, and that reading. -/
def probe? (bytes : List UInt8) : List Encoding → Option (List Char × Encoding)
  | [] => none
  | encoding :: others =>
    let text := encoding.decode bytes
    if isPlausible text then some (text, encoding) else probe? bytes others

/-- The text of some bytes and how their encoding was found. The fallback is an encoding name;
an unknown name stands for UTF-8. -/
def decodeBytes (bytes : List UInt8) (fallback : String) : List Char × Detection :=
  if bytes.isEmpty then ([], .probed utf8)
  else
    match ofMark? bytes with
    | some encoding => (encoding.decode (bytes.drop encoding.mark.length), .marked encoding)
    | none =>
      match probe? bytes candidates with
      | some (text, encoding) => (text, .probed encoding)
      | none => (((ofName? fallback).getD utf8).decode bytes, .fallback)

end Encoding

namespace Detection

/-- The bytes of a text laid out as the bytes it was read from, mark included. A reading with the
fallback cannot be laid out again. -/
def encode? : Detection → List Char → Option (List UInt8)
  | marked encoding, text => (encoding.encode? text).map (encoding.mark ++ ·)
  | probed encoding, text => encoding.encode? text
  | fallback, _ => none

/-- The spelling of a detection in trace messages. -/
def label : Detection → String
  | marked encoding => "Bom(" ++ encoding.label ++ ")"
  | probed encoding => "Probe(" ++ encoding.label ++ ")"
  | fallback => "Fallback"

end Detection

end CfmlTidy
