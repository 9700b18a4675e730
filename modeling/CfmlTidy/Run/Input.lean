import CfmlTidy.Encoding.Detection
import CfmlTidy.Run.Options
import CfmlTidy.Selection.Scan

/-!
# The input of a run

Which files a run processes, which of them are too large for it, and how the text of a file is
read.
-/

namespace CfmlTidy.Run

/-- The files of a run: the patterns of the settings and those of the caller together select
them. A file that is named itself is taken before any pattern is compiled. -/
def selectInputs (workspace : Workspace) (settings : Settings) (options : RunOptions)
    (root : String) : Logged (Except Problem (List String)) :=
  if workspace.isFile root then .quietly (.ok [root])
  else
    Selection.select workspace root (settings.includePatterns ++ options.includes)
      (settings.excludePatterns ++ options.excludes) settings.baseDir

/-- Whether a file is larger than settings allow; a limit of zero allows every size. -/
def isTooLarge (workspace : Workspace) (settings : Settings) (file : String) : Bool :=
  0 < settings.maxFileSize && (workspace.size? file).any (settings.maxFileSize < ·)

/-- What is said of a file that is left out for its size. -/
def tooLargeText (file : String) : String := "Skipped large file: " ++ file

/-- What is said of a file that cannot be read. -/
def unreadableText (file : String) (cause : FileError) : String :=
  "Failed to read " ++ file ++ ": " ++ cause.message

/-- The log of reading a file: a fallback that is no encoding, and how the encoding was found. -/
def decodingLog (settings : Settings) (file : String) (detection : Detection) : List LogLine :=
  (if detection = .fallback ∧ Encoding.ofName? settings.encoding = none then
    [⟨.warn, "Unknown fallback encoding '" ++ settings.encoding ++ "', decoding as UTF-8"⟩]
  else []) ++
  [⟨.trace, "Decoded " ++ file ++ " as " ++ detection.label⟩]

/-- The text of a file and how its encoding was found. -/
def readDecoded (workspace : Workspace) (settings : Settings) (file : String) :
    Logged (Except FileError (List Char × Detection)) :=
  match workspace.read file with
  | .error cause => .quietly (.error cause)
  | .ok bytes =>
    let decoded := Encoding.decodeBytes bytes settings.encoding
    ⟨decodingLog settings file decoded.2, .ok decoded⟩

end CfmlTidy.Run
