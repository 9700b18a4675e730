import CfmlTidy.Text.Blank
import CfmlTidy.Text.Letter

/-!
# Paths

Paths are texts with slashes. What a path means is decided by its components: empty segments
vanish, and a segment that is a single dot counts only at the start of a relative path. Relations
between paths are relations between their component lists.
-/

namespace CfmlTidy.Path

/-- One step of a path. -/
inductive Component where
  /-- The slash that starts an absolute path. -/
  | root
  /-- A dot that starts a relative path. -/
  | current
  /-- Two dots. -/
  | up
  /-- A name. -/
  | name (text : String)
deriving Repr, DecidableEq, Inhabited

/-- The text of a component. -/
def Component.text : Component → String
  | root => "/"
  | current => "."
  | up => ".."
  | name text => text

/-- The component of a segment that is neither empty nor a single dot. -/
def ofSegment (segment : List Char) : Component :=
  if segment = ['.', '.'] then .up else .name (String.ofList segment)

/-- Whether a path is absolute. -/
def isAbsolute (path : String) : Bool := path.toList.head? == some '/'

/-- The components of a path. -/
def components (path : String) : List Component :=
  let segments := Text.splitOn '/' path.toList
  let named := (segments.filter fun segment => !segment.isEmpty && segment != ['.']).map ofSegment
  if isAbsolute path then .root :: named
  else if segments.head? == some ['.'] then .current :: named
  else named

/-- The components of a path without the leading dot. -/
def steps (path : String) : List Component :=
  (components path).filter (· != .current)

/-- The last component when it is a name. -/
def fileName? (path : String) : Option String :=
  match (components path).getLast? with
  | some (.name text) => some text
  | _ => none

/-- A file name cut at its last dot; a name that only starts with a dot is not cut. -/
def splitName (name : String) : String × Option String :=
  let reversed := name.toList.reverse
  let tail := reversed.takeWhile (· != '.')
  match reversed.dropWhile (· != '.') with
  | _ :: (c :: head) => (String.ofList (c :: head).reverse, some (String.ofList tail.reverse))
  | _ => (name, none)

/-- The file name, empty when there is none. -/
def fileName (path : String) : String := (fileName? path).getD ""

/-- The file name without its extension, empty when there is none. -/
def stem (path : String) : String :=
  match fileName? path with
  | some name => (splitName name).1
  | none => ""

/-- The extension of the file name. -/
def extension? (path : String) : Option String :=
  (fileName? path).bind fun name => (splitName name).2

/-- The extension in lower case, empty when there is none. -/
def extension (path : String) : String :=
  Text.lowered ((extension? path).getD "")

/-- Whether a path names a component file. -/
def isComponentFile (path : String) : Bool := extension path == "cfc"

/-- A path below a directory; an absolute path stands for itself. -/
def join (directory path : String) : String :=
  if isAbsolute path then path
  else if directory.isEmpty then path
  else if directory.toList.getLast? == some '/' then directory ++ path
  else directory ++ "/" ++ path

/-- A path made absolute against the working directory. -/
def absolute (working path : String) : String :=
  if isAbsolute path then path else join working path

/-- Components joined by slashes. -/
def segmentsText (segments : List String) : String := Text.joinStrings "/" segments

/-- The longest list that two lists start with. -/
def commonStart : List Component → List Component → List Component
  | left :: lefts, right :: rights =>
    if left = right then left :: commonStart lefts rights else []
  | _, _ => []

/-- The steps from one place to another: up out of what only the base has, then down. -/
def relativeSteps (path base : List Component) : List Component :=
  let shared := (commonStart path base).length
  (base.drop shared).map (fun _ => .up) ++ path.drop shared

/-- A path relative to a base, with two dots for each level that has to be left. Paths without a
common root have none. -/
def relativeTo? (path base : String) : Option String :=
  if (commonStart (steps path) (steps base)).isEmpty ∧ isAbsolute path ∧ isAbsolute base then none
  else some (segmentsText ((relativeSteps (steps path) (steps base)).map Component.text))

/-- The text that patterns are matched against: the path relative to a base directory. -/
def matchText (working path base : String) : String :=
  let full := absolute working path
  match relativeTo? full base with
  | some relative => relative
  | none => String.ofList (full.toList.map fun c => if c = '\\' then '/' else c)

/-- Drop segments at the end that name nothing: empty ones and single dots. The list is reversed;
the first segment of a relative path is kept unless it is empty. -/
def dropIdle (absolutePath : Bool) : List (List Char) → List (List Char)
  | [] => []
  | segment :: rest =>
    if segment.isEmpty || (segment == ['.'] && (absolutePath || !rest.isEmpty)) then
      dropIdle absolutePath rest
    else segment :: rest

/-- The text of a path without its last component; a path without components has none. -/
def parent? (path : String) : Option String :=
  let rooted := isAbsolute path
  let segments := Text.splitOn '/' path.toList
  match dropIdle rooted (if rooted then segments.drop 1 else segments).reverse with
  | [] => none
  | _ :: rest =>
    let kept := Text.joinWith ['/'] (dropIdle rooted rest).reverse
    some (String.ofList (if rooted then '/' :: kept else kept))

/-- Component-wise order of paths. -/
def Component.rank : Component → Nat
  | root => 0
  | current => 1
  | up => 2
  | name _ => 3

/-- Whether one component comes before or equals another. -/
def Component.le (left right : Component) : Bool :=
  match left, right with
  | name a, name b => a ≤ b
  | _, _ => left.rank ≤ right.rank

/-- Lexicographic order of component lists. -/
def componentsLe : List Component → List Component → Bool
  | [], _ => true
  | _ :: _, [] => false
  | left :: lefts, right :: rights =>
    if left = right then componentsLe lefts rights else left.le right

/-- The order in which selected files are listed. -/
def le (left right : String) : Bool := componentsLe (components left) (components right)

end CfmlTidy.Path
