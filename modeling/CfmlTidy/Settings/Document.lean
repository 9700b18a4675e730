import CfmlTidy.Json.Basic
import CfmlTidy.Text.Blank

/-!
# Settings documents

A settings document is a JSON value. Documents are layered: objects merge key by key, and every
other value of the upper document replaces what is below it. A value is addressed by the keys that
lead to it, written with dots between them.
-/

namespace CfmlTidy.Settings

mutual

/-- Lay one document over another. -/
def merge (base : Json) : Json → Json
  | .obj overlay =>
    match base with
    | .obj fields => .obj (mergeFields fields overlay)
    | _ => .obj overlay
  | overlay => overlay

/-- Lay the fields of one object over those of another. -/
def mergeFields (base : List (String × Json)) : List (String × Json) → List (String × Json)
  | [] => base
  | (key, value) :: rest =>
    mergeFields
      (Json.putField key
        (match base.lookup key with
        | some below => merge below value
        | none => value) base)
      rest

end

/-- The keys of a dotted path; empty ones do not count. -/
def keysOf (path : String) : List String :=
  ((Text.splitOn '.' path.toList).filter (!·.isEmpty)).map String.ofList

/-- The value that keys lead to. -/
def valueAt? : Json → List String → Option Json
  | value, [] => some value
  | value, key :: rest => (value.field? key).bind fun inner => valueAt? inner rest

end CfmlTidy.Settings
