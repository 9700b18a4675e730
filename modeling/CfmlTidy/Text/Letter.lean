/-!
# Letter case

Lower and upper case of ASCII letters, comparison up to that case, and the simple case folding
that patterns use. Patterns only name ASCII letters, and two further characters fold to one:
the long s (U+017F) and the Kelvin sign (U+212A).
-/

namespace CfmlTidy.Text

/-- Lower case of an ASCII letter; every other character is its own lower case. -/
def lower (c : Char) : Char :=
  if 'A' ≤ c ∧ c ≤ 'Z' then Char.ofNat (c.toNat + 32) else c

/-- Upper case of an ASCII letter; every other character is its own upper case. -/
def upper (c : Char) : Char :=
  if 'a' ≤ c ∧ c ≤ 'z' then Char.ofNat (c.toNat - 32) else c

/-- A string with its ASCII letters in lower case. -/
def lowered (text : String) : String :=
  String.ofList (text.toList.map lower)

/-- A string with its ASCII letters in upper case. -/
def uppered (text : String) : String :=
  String.ofList (text.toList.map upper)

/-- Equality up to the case of ASCII letters. -/
def sameIgnoringCase (left right : List Char) : Bool :=
  left.map lower == right.map lower

/-- The Kelvin sign, whose lower case is the letter `k`. -/
def kelvinSign : Char := '\u212A'

/-- The long s, which folds to the letter `s`. -/
def longS : Char := '\u017F'

/-- Simple case folding, exact on every character that folds to an ASCII letter. -/
def fold (c : Char) : Char :=
  if c = longS then 's' else if c = kelvinSign then 'k' else lower c

/-- The lower case of a word of ASCII letters in which a Kelvin sign may stand for `k`. -/
def loweredWord (text : String) : String :=
  String.ofList (text.toList.map fun c => if c = kelvinSign then 'k' else lower c)

/-- An upper case letter among the characters that an identifier can hold. -/
def isUpperLetter (c : Char) : Bool :=
  ('A' ≤ c && c ≤ 'Z') || c == kelvinSign

/-- Whether `needle` occurs in `text` as a run of neighbours. -/
def contains (needle : List Char) : List Char → Bool
  | [] => needle.isEmpty
  | c :: rest => needle.isPrefixOf (c :: rest) || contains needle rest

/-- Whether one string occurs in another. -/
def containsString (needle text : String) : Bool :=
  contains needle.toList text.toList

end CfmlTidy.Text
