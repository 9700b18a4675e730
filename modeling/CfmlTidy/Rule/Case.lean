import CfmlTidy.Text.Class
import CfmlTidy.Text.Letter

/-!
# Case conventions

The shapes of names: a capital first, a small letter first, all capitals, and the names of methods
that the platform calls.
-/

namespace CfmlTidy.Case

open CfmlTidy.Text

/-- A capital letter of ASCII. -/
def isCapital (c : Char) : Bool := 'A' ≤ c && c ≤ 'Z'

/-- A small letter of ASCII. -/
def isSmall (c : Char) : Bool := 'a' ≤ c && c ≤ 'z'

/-- A capital, then letters and digits. -/
def isPascal : List Char → Bool
  | [] => false
  | c :: rest => isCapital c && rest.all isAsciiAlphanumeric

/-- A small letter, then letters and digits. -/
def isCamel : List Char → Bool
  | [] => false
  | c :: rest => isSmall c && rest.all isAsciiAlphanumeric

/-- A capital, then capitals, digits and underscores. -/
def isUpper : List Char → Bool
  | [] => false
  | c :: rest => isCapital c && rest.all fun c => isCapital c || isAsciiDigit c || c == '_'

/-- The name of a constructor, or of a handler: `on` and a capital. -/
def isLifecycle (name : List Char) : Bool :=
  name == ['i', 'n', 'i', 't'] ||
    (match name with
    | 'o' :: 'n' :: c :: _ => isUpperLetter c
    | _ => false)

/-- Whether a name is its own upper case. -/
def isShouted (name : List Char) : Bool :=
  name.all fun c => upper c == c && c != longS

end CfmlTidy.Case
