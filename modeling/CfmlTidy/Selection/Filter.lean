import CfmlTidy.Path
import CfmlTidy.Problem
import CfmlTidy.Selection.Glob

/-!
# Include and exclude patterns

A pattern selects a path that equals it, that lies below it, or that its glob matches. A file is
selected when some include pattern and no exclude pattern matches its path relative to a base
directory.
-/

namespace CfmlTidy.Selection

/-- A pattern: its text, and its glob when it has a wildcard. -/
structure PathPattern where
  /-- The text of the pattern. -/
  raw : String
  /-- The tokens of its glob. -/
  glob : Option (List Glob.Token)

/-- Whether a pattern has a wildcard and so is a glob. -/
def hasWildcard (pattern : String) : Bool :=
  pattern.toList.any fun c => c == '*' || c == '?'

/-- The pattern of a text. -/
def PathPattern.ofText (pattern : String) : Except Problem PathPattern :=
  if hasWildcard pattern then
    match Glob.read pattern with
    | .ok tokens => .ok ⟨pattern, some tokens⟩
    | .error fault => .error (.pattern pattern (fault.message pattern))
  else .ok ⟨pattern, none⟩

/-- Whether a path is a directory or lies below it. -/
def isUnder (path directory : List Char) : Bool :=
  path == directory ||
    (directory.isPrefixOf path && (path.drop directory.length).head? == some '/')

/-- A pattern without the slash at its end. -/
def directoryOf? (pattern : List Char) : Option (List Char) :=
  if pattern.getLast? = some '/' then some pattern.dropLast else none

/-- Whether a pattern matches a path with slashes. -/
def PathPattern.accepts (pattern : PathPattern) (path : String) : Bool :=
  path == pattern.raw ||
    (directoryOf? pattern.raw.toList).any (isUnder path.toList) ||
    (match pattern.glob with
    | none => isUnder path.toList pattern.raw.toList
    | some tokens => Glob.accepts true tokens path)

/-- Include and exclude patterns with the directory they are relative to. -/
structure Filter where
  /-- A selected file matches one of these. -/
  includes : List PathPattern
  /-- A selected file matches none of these. -/
  excludes : List PathPattern
  /-- The directory that paths are taken relative to. -/
  base : String

namespace Filter

/-- The filter of include and exclude texts; the first that cannot be compiled is the problem. -/
def ofTexts (includes excludes : List String) (base : String) : Except Problem Filter := do
  let included ← includes.mapM PathPattern.ofText
  let excluded ← excludes.mapM PathPattern.ofText
  return ⟨included, excluded, base⟩

/-- Whether an include pattern matches a relative path. -/
def isIncluded (filter : Filter) (relative : String) : Bool :=
  filter.includes.any (·.accepts relative)

/-- Whether an exclude pattern matches a relative path. -/
def isExcluded (filter : Filter) (relative : String) : Bool :=
  filter.excludes.any (·.accepts relative)

/-- Whether a file is selected; relative paths are taken from the working directory. -/
def selects (filter : Filter) (working path : String) : Bool :=
  let relative := Path.matchText working path filter.base
  filter.isIncluded relative && !filter.isExcluded relative

end Filter

end CfmlTidy.Selection
