import CfmlTidy.Settings.Basic

/-!
# Default settings

The document that every loaded document is laid over, and the named settings with the values they
take when nothing sets them.
-/

namespace CfmlTidy.Settings

/-- Patterns of the files that are selected unless settings say otherwise. -/
def defaultIncludes : List String := ["**/*.cfm", "**/*.cfc", "**/*.cfml"]

/-- Patterns of the files that are left out unless settings say otherwise. -/
def defaultExcludes : List String :=
  ["**/node_modules/**", "**/target/**", "**/build/**", "**/.git/**"]

/-- The document that every loaded document is laid over. -/
def defaultDocument : Json :=
  .object [
    ("parser", .object [
      ("primary", .str "boxlang"),
      ("fallback", .str "regex"),
      ("timeout", .int 30000),
      ("maxFileSize", .int 10485760),
      ("encoding", .str "UTF-8")]),
    ("performance", .object [
      ("parallelProcessing", .bool true),
      ("maxThreads", .int 4),
      ("enableCaching", .bool true),
      ("cacheDirectory", .str ".lucee-toolbox-cache")]),
    ("linting", .object [
      ("enabled", .bool true),
      ("severity", .object [
        ("error", .strs ["SECURITY_VIOLATION", "SYNTAX_ERROR"]),
        ("warning", .strs ["NAMING_CONVENTION", "BEST_PRACTICE"]),
        ("info", .strs ["STYLE_GUIDE", "DOCUMENTATION"])]),
      ("disabledRules", .arr []),
      ("rules", .object [
        ("naming", .object [
          ("componentCase", .str "PascalCase"),
          ("functionCase", .str "camelCase"),
          ("variableCase", .str "camelCase"),
          ("constantCase", .str "UPPER_CASE"),
          ("fileCase", .str "camelCase"),
          ("cfcFileCase", .str "PascalCase"),
          ("cfmFileCase", .str "camelCase"),
          ("interfacePrefix", .str "I"),
          ("abstractSuffix", .str "Abstract"),
          ("baseSuffix", .str "Base")]),
        ("whitespace", .object [
          ("indentSize", .int 4),
          ("indentType", .str "spaces"),
          ("trimTrailingWhitespace", .bool true),
          ("insertFinalNewline", .bool true),
          ("maxEmptyLines", .int 1)]),
        ("codeStructure", .object [
          ("requireCurlyBraces", .bool true),
          ("curlyBraceStyle", .str "same-line"),
          ("maxFunctionLength", .int 50),
          ("maxLineLength", .int 120),
          ("maxFileLength", .int 1000),
          ("requireInit", .bool true),
          ("requireReturnTypes", .bool true),
          ("requireArgumentTypes", .bool true),
          ("useAccessors", .bool true)]),
        ("bestPractices", .object [
          ("useVarScoping", .bool true),
          ("avoidEvaluate", .bool true),
          ("preferDoubleQuotes", .bool true)]),
        ("security", .object [
          ("checkSqlInjection", .bool true),
          ("checkXss", .bool true)])])]),
    ("formatting", .object [
      ("enabled", .bool true),
      ("indentation", .object [
        ("type", .str "spaces"),
        ("size", .int 4)]),
      ("braces", .object [
        ("style", .str "same-line")]),
      ("wrapping", .object [
        ("maxLineLength", .int 120)])]),
    ("includes", .strs defaultIncludes),
    ("excludes", .strs defaultExcludes),
    ("customRules", .obj [])]

/-- A document taken as it is. -/
def ofDocument (document : Json) (baseDir : String) : Settings := ⟨document, baseDir, none⟩

/-- A document laid over the defaults. -/
def layered (document : Json) (baseDir : String) : Settings :=
  ofDocument (merge defaultDocument document) baseDir

/-- The defaults, based at the current directory. -/
def default : Settings := ofDocument defaultDocument "."

/-- Tag of the parser for components and markup. -/
def primaryParser (settings : Settings) : String := settings.getStr "parser.primary" "boxlang"

/-- Tag of the parser for everything else. -/
def fallbackParser (settings : Settings) : String := settings.getStr "parser.fallback" "regex"

/-- Time allowed per file in milliseconds; it is reported and not enforced. -/
def parserTimeout (settings : Settings) : Int := settings.getLong "parser.timeout" 30000

/-- Largest file size in bytes that is processed; zero means no limit. -/
def maxFileSize (settings : Settings) : Nat :=
  (settings.getLong "parser.maxFileSize" 10485760).toNat

/-- Name of the encoding of files whose encoding is not found. -/
def encoding (settings : Settings) : String := settings.getStr "parser.encoding" "UTF-8"

/-- Whether files may be processed at the same time. -/
def parallel (settings : Settings) : Bool := settings.getBool "performance.parallelProcessing" true

/-- Number of workers. -/
def maxThreads (settings : Settings) : Int := settings.getInt "performance.maxThreads" 4

/-- Whether caching is switched on. -/
def caching (settings : Settings) : Bool := settings.getBool "performance.enableCaching" true

/-- Directory of the cache. -/
def cacheDirectory (settings : Settings) : String :=
  settings.getStr "performance.cacheDirectory" ".lucee-toolbox-cache"

/-- Whether rules are run. -/
def lintingEnabled (settings : Settings) : Bool := settings.getBool "linting.enabled" true

/-- Rule categories listed under a severity. -/
def severityCategories (settings : Settings) (severity : String) : List String :=
  settings.getList ("linting.severity." ++ severity) []

/-- Ids of the rules that are switched off, by the list of disabled rules and by the active custom
rule set. -/
def disabledRules (settings : Settings) : List String :=
  let listed := settings.getList "linting.disabledRules" []
  let ruleSet := settings.getStr "linting.ruleSet" ""
  if ruleSet.isEmpty then listed
  else listed ++ settings.getList ("customRules." ++ ruleSet ++ ".disabled") []

/-- A naming convention. -/
def naming (settings : Settings) (key missing : String) : String :=
  settings.getStr ("linting.rules.naming." ++ key) missing

/-- What names of interfaces start with. -/
def interfacePrefix (settings : Settings) : String := settings.naming "interfacePrefix" "I"

/-- What names of abstract components end with. -/
def abstractSuffix (settings : Settings) : String := settings.naming "abstractSuffix" "Abstract"

/-- Width of a tab in line lengths. -/
def indentSize (settings : Settings) : Int :=
  settings.getInt "linting.rules.whitespace.indentSize" 4

/-- Spaces or tabs. -/
def indentType (settings : Settings) : String :=
  settings.getStr "linting.rules.whitespace.indentType" "spaces"

/-- Whether blanks at line ends are reported. -/
def trimTrailing (settings : Settings) : Bool :=
  settings.getBool "linting.rules.whitespace.trimTrailingWhitespace" true

/-- Blank lines allowed in a row. -/
def maxEmptyLines (settings : Settings) : Int :=
  settings.getInt "linting.rules.whitespace.maxEmptyLines" 1

/-- A switch of the code structure rules. -/
def structureFlag (settings : Settings) (key : String) : Bool :=
  settings.getBool ("linting.rules.codeStructure." ++ key) true

/-- Where opening braces stand. -/
def braceStyle (settings : Settings) : String :=
  settings.getStr "linting.rules.codeStructure.curlyBraceStyle" "same-line"

/-- Code lines allowed in a function. -/
def maxFunctionLength (settings : Settings) : Int :=
  settings.getInt "linting.rules.codeStructure.maxFunctionLength" 50

/-- Columns allowed in a line. -/
def maxLineLength (settings : Settings) : Int :=
  settings.getInt "linting.rules.codeStructure.maxLineLength" 120

/-- Code lines allowed in a file. -/
def maxFileLength (settings : Settings) : Int :=
  settings.getInt "linting.rules.codeStructure.maxFileLength" 1000

/-- Spaces that formatting puts in place of a tab. -/
def formatIndent (settings : Settings) : Int := settings.getInt "formatting.indentation.size" 4

/-- Patterns of the files that are selected. -/
def includePatterns (settings : Settings) : List String :=
  settings.getList "includes" defaultIncludes

/-- Patterns of the files that are left out. -/
def excludePatterns (settings : Settings) : List String :=
  settings.getList "excludes" defaultExcludes

/-- The command line of an external validator. -/
def engineCommand (settings : Settings) : List String :=
  settings.getList "parser.lucee.command" []

/-- A truth value as text. -/
def boolText (value : Bool) : String := if value then "true" else "false"

/-- The settings that drive a run, in a few lines. -/
def summary (settings : Settings) : String :=
  let disabled := settings.disabledRules
  "Configuration: " ++ settings.source.getD "built-in defaults" ++ "\n" ++
    "Base directory: " ++ settings.baseDir ++ "\n" ++
    "Parser: primary=" ++ settings.primaryParser ++ " fallback=" ++ settings.fallbackParser ++
    " encoding=" ++ settings.encoding ++ " maxFileSize=" ++ toString settings.maxFileSize ++ "\n" ++
    "Performance: parallel=" ++ boolText settings.parallel ++ " maxThreads=" ++
    Json.intText settings.maxThreads ++ "\n" ++
    "Linting enabled: " ++ boolText settings.lintingEnabled ++ "\n" ++
    "Includes: " ++ Text.joinStrings ", " settings.includePatterns ++ "\n" ++
    "Excludes: " ++ Text.joinStrings ", " settings.excludePatterns ++ "\n" ++
    (if disabled.isEmpty then ""
    else "Disabled rules: " ++ Text.joinStrings ", " disabled ++ "\n")

end CfmlTidy.Settings
