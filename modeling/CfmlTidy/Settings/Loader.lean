import CfmlTidy.Json.Reader
import CfmlTidy.Log
import CfmlTidy.Path
import CfmlTidy.Settings.RuleSet
import CfmlTidy.Toml.Reader

/-!
# Loading settings

Where a settings document is looked for, how its text is read, and which directory its patterns
are relative to. Files are seen through a `Host`, which answers what loading has to know about
them. A document that is missing or cannot be read gives way to the defaults; one that is
malformed is a problem.
-/

namespace CfmlTidy.Settings

/-- What is said of a document that is no JSON or TOML text. -/
def malformedText : String := "<syntax>"

/-- What is said of a document that is no object. -/
def notObjectText : String := "top-level value must be an object"

/-- Whether a path names a TOML document; every other document is JSON. -/
def isTomlPath (path : String) : Bool :=
  match Path.extension? path with
  | some extension => Text.sameIgnoringCase extension.toList "toml".toList
  | none => false

/-- The document that a text holds. -/
def parseDocument (path text : String) : Except Problem Json :=
  match if isTomlPath path then Toml.parse? text else Json.parse? text with
  | none => .error (.document path malformedText)
  | some document =>
    if document.isObject then .ok document else .error (.document path notObjectText)

/-- What loading has to know about files. -/
structure Host where
  /-- The text of a file, or why it cannot be read. -/
  read : String → Except String String
  /-- Whether a path exists. -/
  exist : String → Bool
  /-- The working directory, when it is known. -/
  working : Option String
  /-- The directory of the settings of the user. -/
  userDir : Option String
  /-- The absolute path of an existing file or directory without detours. -/
  canonical : String → Option String

namespace Host

/-- Name of the document beside the sources. -/
def localName : String := "cfml-lint.json"

/-- Name of the document in the directory of the user. -/
def userName : String := "config.json"

/-- The paths where a document is looked for, in order: the directory of the input, the working
directory and the directory of the user. -/
def candidates (host : Host) (search : Option String) : List String :=
  (search.map fun directory => Path.join directory localName).toList ++
    (host.working.map fun directory => Path.join directory localName).toList ++
    (host.userDir.map fun directory => Path.join directory userName).toList

/-- The canonical form of a path, or the path where there is none. -/
def settle (host : Host) (path : String) : String := (host.canonical path).getD path

/-- The working directory; a dot when it is not known. -/
def workingDir (host : Host) : String := host.working.getD "."

/-- The defaults, based at the working directory. -/
def defaults (host : Host) : Settings := layered (.obj []) (host.settle host.workingDir)

/-- The directory that a document's patterns are relative to: the one it lies in. -/
def baseOf (host : Host) (path : String) : String :=
  match (Path.parent? path).filter (!·.isEmpty) with
  | some directory => host.settle directory
  | none => host.settle host.workingDir

/-- Load the document at a path. -/
def loadFrom (host : Host) (path : String) : Logged (Except Problem Settings) :=
  if !host.exist path then
    .noting .warn ("Configuration file not found: " ++ path ++ ", using defaults")
      (.ok host.defaults)
  else
    match host.read path with
    | .error cause =>
      .noting .warn ("Cannot read configuration " ++ path ++ ": " ++ cause ++ ", using defaults")
        (.ok host.defaults)
    | .ok text =>
      match parseDocument path text with
      | .error problem => .quietly (.error problem)
      | .ok document =>
        .noting .info ("Loaded configuration from " ++ path)
          (.ok { layered document (host.baseOf path) with source := some path })

/-- Load the first document that exists where one is looked for, or the defaults. -/
def load (host : Host) (search : Option String) : Logged (Except Problem Settings) :=
  match (host.candidates search).find? host.exist with
  | some path => host.loadFrom path
  | none => .noting .warn "No configuration file found, using defaults" (.ok host.defaults)

end Host

end CfmlTidy.Settings
