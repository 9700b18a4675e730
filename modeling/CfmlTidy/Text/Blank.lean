/-!
# Blank characters

The characters with the White_Space property, and the trimming and word splitting that rest on
them. Text is handled as its list of characters, so every operation is a list operation.
-/

namespace CfmlTidy.Text

/-- The twenty-five characters with the White_Space property. -/
def isBlank (c : Char) : Bool :=
  (0x09 ≤ c.toNat && c.toNat ≤ 0x0D) || c.toNat == 0x20 || c.toNat == 0x85 || c.toNat == 0xA0 ||
    c.toNat == 0x1680 || (0x2000 ≤ c.toNat && c.toNat ≤ 0x200A) || c.toNat == 0x2028 ||
    c.toNat == 0x2029 || c.toNat == 0x202F || c.toNat == 0x205F || c.toNat == 0x3000

/-- Text made of blanks only; the empty text is. -/
def allBlank (text : List Char) : Bool :=
  text.all isBlank

/-- Drop the longest ending whose characters all satisfy `drop`. -/
def dropEndWhile (drop : Char → Bool) (text : List Char) : List Char :=
  (text.reverse.dropWhile drop).reverse

/-- Drop leading blanks. -/
def trimStart (text : List Char) : List Char :=
  text.dropWhile isBlank

/-- Drop trailing blanks. -/
def trimEnd (text : List Char) : List Char :=
  dropEndWhile isBlank text

/-- Drop blanks at both ends. -/
def trim (text : List Char) : List Char :=
  trimEnd (trimStart text)

/-- Drop blanks at both ends of a string. -/
def trimmed (text : String) : String :=
  String.ofList (trim text.toList)

/-- The pieces between characters that satisfy `cut`, in order; there is always one piece. -/
def splitBy (cut : Char → Bool) : List Char → List (List Char)
  | [] => [[]]
  | c :: rest =>
    if cut c then [] :: splitBy cut rest
    else
      match splitBy cut rest with
      | [] => [[c]]
      | piece :: pieces => (c :: piece) :: pieces

/-- The pieces between occurrences of one character. -/
def splitOn (separator : Char) (text : List Char) : List (List Char) :=
  splitBy (· == separator) text

/-- The maximal runs of characters that are not blank. -/
def words (text : List Char) : List (List Char) :=
  (splitBy isBlank text).filter (!·.isEmpty)

/-- The lists joined with a separator between neighbours. -/
def joinWith (separator : List Char) : List (List Char) → List Char
  | [] => []
  | [piece] => piece
  | piece :: pieces => piece ++ separator ++ joinWith separator pieces

/-- The strings joined with a separator between neighbours. -/
def joinStrings (separator : String) : List String → String
  | [] => ""
  | [piece] => piece
  | piece :: pieces => piece ++ separator ++ joinStrings separator pieces

end CfmlTidy.Text
