import CfmlTidy.Encoding.Utf8
import CfmlTidy.Path
import CfmlTidy.Settings.Loader

/-!
# The workspace

The files and directories that a run can see and change, and the working directory that relative
paths start from. A path leads somewhere segment by segment: every segment is looked up in a
directory that exists, so a path through a file or through a missing directory leads nowhere.
-/

namespace CfmlTidy

/-- What stands under a name. -/
inductive Entry where
  /-- A file with its bytes. -/
  | file (bytes : List UInt8)
  /-- A directory. -/
  | directory
deriving Repr, DecidableEq

/-- Why a path cannot be read or written. -/
inductive FileError where
  /-- Nothing is there. -/
  | missing
  /-- A directory is there. -/
  | isDirectory
  /-- It leads through a file. -/
  | notDirectory
deriving Repr, DecidableEq

/-- The wording of a file error. -/
def FileError.message : FileError → String
  | missing => "No such file or directory (os error 2)"
  | isDirectory => "Is a directory (os error 21)"
  | notDirectory => "Not a directory (os error 20)"

/-- The files and directories that a run can see and change. -/
structure Workspace where
  /-- Everything below the root, by the names that lead to it from the root. -/
  entries : List (List String × Entry)
  /-- The names that lead to the working directory. -/
  working : List String

namespace Workspace

/-- The absolute path that names lead along. -/
def pathOf (names : List String) : String := "/" ++ Text.joinStrings "/" names

/-- The working directory. -/
def workingDir (workspace : Workspace) : String := pathOf workspace.working

/-- What stands at the end of names; the root is a directory. -/
def entry? (workspace : Workspace) (names : List String) : Option Entry :=
  if names.isEmpty then some .directory else workspace.entries.lookup names

/-- The names after one more segment. -/
def advance (names : List String) (segment : List Char) : List String :=
  if segment.isEmpty || segment == ['.'] then names
  else if segment == ['.', '.'] then names.dropLast
  else names ++ [String.ofList segment]

/-- Follow segments from a place. Every segment is looked up in an existing directory; what the
last one leads to need not exist. -/
def follow (workspace : Workspace) (names : List String) :
    List (List Char) → Except FileError (List String)
  | [] => .ok names
  | segment :: rest =>
    match workspace.entry? names with
    | none => .error .missing
    | some (.file _) => .error .notDirectory
    | some .directory => workspace.follow (advance names segment) rest

/-- The names that a path leads along. -/
def resolve (workspace : Workspace) (path : String) : Except FileError (List String) :=
  if path.isEmpty then .error .missing
  else
    workspace.follow (if Path.isAbsolute path then [] else workspace.working)
      (Text.splitOn '/' path.toList)

/-- The names of what a path leads to, and what it is. -/
def find (workspace : Workspace) (path : String) : Except FileError (List String × Entry) :=
  match workspace.resolve path with
  | .error cause => .error cause
  | .ok names =>
    match workspace.entry? names with
    | none => .error .missing
    | some entry => .ok (names, entry)

/-- Whether a path leads to anything. -/
def holds (workspace : Workspace) (path : String) : Bool :=
  match workspace.find path with
  | .ok _ => true
  | .error _ => false

/-- Whether a path leads to a file. -/
def isFile (workspace : Workspace) (path : String) : Bool :=
  match workspace.find path with
  | .ok (_, .file _) => true
  | _ => false

/-- The bytes of the file at a path. -/
def read (workspace : Workspace) (path : String) : Except FileError (List UInt8) :=
  match workspace.find path with
  | .error cause => .error cause
  | .ok (_, .directory) => .error .isDirectory
  | .ok (_, .file bytes) => .ok bytes

/-- The size that a directory is reported with. -/
def directorySize : Nat := 4096

/-- The size of what a path leads to. -/
def size? (workspace : Workspace) (path : String) : Option Nat :=
  match workspace.find path with
  | .error _ => none
  | .ok (_, .directory) => some directorySize
  | .ok (_, .file bytes) => some bytes.length

/-- Put an entry under names in a list of entries; an entry that is there keeps its place. -/
def putEntry (names : List String) (entry : Entry) :
    List (List String × Entry) → List (List String × Entry)
  | [] => [(names, entry)]
  | (other, current) :: rest =>
    if other = names then (names, entry) :: rest
    else (other, current) :: putEntry names entry rest

/-- The workspace with an entry under names. -/
def put (workspace : Workspace) (names : List String) (entry : Entry) : Workspace :=
  { workspace with entries := putEntry names entry workspace.entries }

/-- Whether a path ends in a slash and so can only mean a directory. -/
def endsInSlash (path : String) : Bool := path.toList.getLast? == some '/'

/-- A path without the slashes at its end; the root stays. -/
def withoutSlashes (path : String) : String :=
  let kept := Text.dropEndWhile (· == '/') path.toList
  if kept.isEmpty then path else String.ofList kept

/-- Write bytes to the file at a path, which need not exist; its directory has to. -/
def write (workspace : Workspace) (path : String) (bytes : List UInt8) :
    Except FileError Workspace :=
  match workspace.resolve (withoutSlashes path) with
  | .error cause => .error cause
  | .ok names =>
    if endsInSlash path then .error .isDirectory
    else
      match workspace.entry? names with
      | some .directory => .error .isDirectory
      | _ => .ok (workspace.put names (.file bytes))

/-- The absolute path of what a path leads to, without detours. -/
def canonical? (workspace : Workspace) (path : String) : Option String :=
  match workspace.find path with
  | .ok (names, _) => some (pathOf names)
  | .error _ => none

/-- The names below a place, when others start with it. -/
def below? (names others : List String) : Option (List String) :=
  if names.isPrefixOf others then some (others.drop names.length) else none

/-- The files at and below a directory, as paths that start with the path of the directory. -/
def filesUnder (workspace : Workspace) (path : String) : List String :=
  match workspace.resolve path with
  | .error _ => []
  | .ok names =>
    workspace.entries.filterMap fun entry =>
      match entry.2 with
      | .directory => none
      | .file _ =>
        (below? names entry.1).map fun rest => Path.join path (Text.joinStrings "/" rest)

/-- What is said of a file that is no UTF-8 text. -/
def notTextMessage : String := "stream did not contain valid UTF-8"

/-- The text of a file that has to be UTF-8. -/
def readText (workspace : Workspace) (path : String) : Except String String :=
  match workspace.read path with
  | .error cause => .error cause.message
  | .ok bytes =>
    let text := Encoding.Utf8.decode bytes
    if Encoding.Utf8.encode text == bytes then .ok (String.ofList text) else .error notTextMessage

/-- What loading settings sees of a workspace. -/
def host (workspace : Workspace) (userDir : Option String) : Settings.Host where
  read := workspace.readText
  exist := workspace.holds
  working := some workspace.workingDir
  userDir := userDir
  canonical := workspace.canonical?

end Workspace

end CfmlTidy
