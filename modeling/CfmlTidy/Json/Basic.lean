/-!
# JSON values

The values that settings documents and reports are made of. Integers and doubles are kept apart:
a number written without a point and exponent that fits 64 bits is an integer, every other number
a double, held by its bits. An object lists its fields in the order in which they are printed;
documents keep them sorted by key.
-/

namespace CfmlTidy

/-- A JSON value. -/
inductive Json where
  /-- The null value. -/
  | null
  /-- A truth value. -/
  | bool (value : Bool)
  /-- An integer. -/
  | int (value : Int)
  /-- A double, by its bits. -/
  | real (bits : UInt64)
  /-- A text. -/
  | str (value : String)
  /-- An array. -/
  | arr (items : List Json)
  /-- An object: its fields in order. -/
  | obj (fields : List (String × Json))
deriving Repr, Inhabited, BEq

namespace Json

/-- A natural number as a value. -/
def nat (value : Nat) : Json := int value

/-- A text or null. -/
def optional (value : Option String) : Json :=
  match value with
  | some text => str text
  | none => null

/-- A list of texts. -/
def strs (values : List String) : Json := arr (values.map str)

/-- Insert or replace a field, keeping fields sorted by key. -/
def putField {α : Type} (key : String) (value : α) : List (String × α) → List (String × α)
  | [] => [(key, value)]
  | (other, current) :: rest =>
    if key < other then (key, value) :: (other, current) :: rest
    else if key = other then (key, value) :: rest
    else (other, current) :: putField key value rest

/-- An object from fields in any order; of two fields with one key the later counts. -/
def object (fields : List (String × Json)) : Json :=
  obj (fields.foldl (fun sorted field => putField field.1 field.2 sorted) [])

/-- The field of an object under a key. -/
def field? (value : Json) (key : String) : Option Json :=
  match value with
  | obj fields => fields.lookup key
  | _ => none

/-- The text of a text value. -/
def asString? : Json → Option String
  | str value => some value
  | _ => none

/-- Whether a value is an object. -/
def isObject : Json → Bool
  | obj _ => true
  | _ => false

end Json

end CfmlTidy
