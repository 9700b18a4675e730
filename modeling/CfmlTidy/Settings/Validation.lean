import CfmlTidy.Selection.Glob
import CfmlTidy.Settings.Defaults

/-!
# Validation of settings

Finds settings that no run could use: unknown parsers, limits below one, an unknown kind of
indentation, and patterns that cannot be compiled.
-/

namespace CfmlTidy.Settings

/-- A setting that no run could use. -/
structure Flaw where
  /-- Where it is set. -/
  path : String
  /-- What is wrong with it. -/
  text : String
deriving Repr, DecidableEq

/-- The flaw with its place. -/
def Flaw.message (flaw : Flaw) : String := flaw.path ++ ": " ++ flaw.text

/-- Tags of the parsers that can be set. -/
def knownParsers : List String := ["boxlang", "lucee", "regex"]

/-- Kinds of indentation that can be set. -/
def knownIndentTypes : List String := ["spaces", "tabs"]

/-- The flaw of a parser tag. -/
def parserFlaws (path role tag : String) : List Flaw :=
  if knownParsers.contains tag then []
  else [⟨path, "Invalid " ++ role ++ " parser '" ++ tag ++ "', expected one of: " ++
    Text.joinStrings ", " knownParsers⟩]

/-- The flaws of numbers and of the kind of indentation. -/
def numberFlaws (settings : Settings) : List Flaw :=
  (if settings.maxThreads < 1 then
    [⟨"performance.maxThreads", "maxThreads must be at least 1"⟩] else []) ++
  (if settings.indentSize < 1 then
    [⟨"linting.rules.whitespace.indentSize", "indentSize must be at least 1"⟩] else []) ++
  (if knownIndentTypes.contains settings.indentType then []
  else
    [⟨"linting.rules.whitespace.indentType",
      "indentType must be 'spaces' or 'tabs', got '" ++ settings.indentType ++ "'"⟩])

/-- The flaws of patterns that cannot be compiled. -/
def patternFlaws (key : String) (patterns : List String) : List Flaw :=
  patterns.filterMap fun pattern =>
    match Glob.read pattern with
    | .ok _ => none
    | .error fault =>
      some ⟨key, "Invalid glob pattern '" ++ pattern ++ "': " ++ fault.message pattern⟩

/-- Every flaw of the settings. -/
def validate (settings : Settings) : List Flaw :=
  parserFlaws "parser.primary" "primary" settings.primaryParser ++
    parserFlaws "parser.fallback" "fallback" settings.fallbackParser ++
    settings.numberFlaws ++
    patternFlaws "includes" settings.includePatterns ++
    patternFlaws "excludes" settings.excludePatterns

end CfmlTidy.Settings
