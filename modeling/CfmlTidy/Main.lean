import CfmlTidy.Command.Execute
import CfmlTidy.Command.Line

/-!
# The program

Takes a picture of the files that a command can see, executes the command on the picture, and
writes back the files that it changed.
-/

namespace CfmlTidy.Program

/-- The names that an absolute path leads along. -/
def namesOf (path : String) : List String :=
  ((Text.splitOn '/' path.toList).filter (!·.isEmpty)).map String.ofList

/-- The directory of the settings of the user. -/
def userDirOf (configHome home : Option String) : Option String :=
  match configHome.filter Path.isAbsolute with
  | some directory => some (Path.join directory "cfml-lint")
  | none => home.map fun directory => Path.join directory ".config/cfml-lint"

/-- Everything that one command can see, as paths: whole directories first, then single files. -/
def pathsOf (userDir : Option String) (invocation : Command.Invocation) :
    List String × List String :=
  let inputs (path : String) : List String × List String :=
    ([path], [Path.join path Settings.Host.localName,
      Path.join ((Path.parent? path).getD "") Settings.Host.localName])
  let settings := [Settings.Host.localName] ++ invocation.config.toList ++
    (userDir.map fun directory => Path.join directory Settings.Host.userName).toList
  match invocation.action with
  | .lint input _ | .format input _ | .both input _ _ =>
    let (trees, files) := inputs input.path
    (trees, files ++ input.output.toList ++ settings)
  | .rules => ([], [])
  | .showSettings directory _ | .checkSettings directory =>
    ([], (inputs directory).2 ++ [directory] ++ settings)

/-- The beginnings of a path that end before a slash or at its end. -/
def beginnings (path : String) : List String :=
  let segments := Text.splitOn '/' path.toList
  (List.range segments.length).map fun count =>
    let start := String.ofList (Text.joinWith ['/'] (segments.take (count + 1)))
    if start.isEmpty then "/" else start

/-- Add what stands at a path to the picture; `deep` adds what lies below a directory too. -/
partial def addPath (deep : Bool) (workspace : Workspace) (path : String) : IO Workspace := do
  let full := (← IO.currentDir) / path
  if !(← full.pathExists) then return workspace
  let names := namesOf (← IO.FS.realPath full).toString
  if ← full.isDir then
    let mut picture := workspace.put names .directory
    if deep then
      for entry in ← full.readDir do
        picture ← addPath true picture entry.path.toString
    return picture
  else
    return workspace.put names (.file (← IO.FS.readBinFile full).toList)

/-- The picture of the files that a command can see. -/
def takePicture (userDir : Option String) (invocation : Command.Invocation) : IO Workspace := do
  let working := (← IO.FS.realPath (← IO.currentDir)).toString
  let (trees, files) := pathsOf userDir invocation
  let mut picture : Workspace := ⟨[], namesOf working⟩
  for path in (working :: trees ++ files).flatMap beginnings do
    picture ← addPath false picture path
  for path in trees do
    picture ← addPath true picture path
  return picture

/-- Write back the files that differ from the picture. -/
def writeBack (before after : Workspace) : IO Unit := do
  for (names, entry) in after.entries do
    if before.entry? names != some entry then
      if let .file bytes := entry then
        IO.FS.writeBinFile (Workspace.pathOf names) ⟨bytes.toArray⟩

/-- Execute a command and leave its exit code. -/
def run (invocation : Command.Invocation) : IO UInt32 := do
  let userDir := userDirOf (← IO.getEnv "XDG_CONFIG_HOME") (← IO.getEnv "HOME")
  let workspace ← takePicture userDir invocation
  let (code, session) := Command.execute ⟨userDir, id⟩ invocation workspace
  writeBack workspace session.workspace
  for line in Command.shownLog invocation session do
    IO.eprintln line
  IO.eprint session.stderr
  IO.print session.stdout
  return code.toUInt32

end CfmlTidy.Program

/-- Read the command line and execute it. -/
def main (words : List String) : IO UInt32 := do
  match CfmlTidy.Command.Invocation.ofWords words with
  | .ok invocation => CfmlTidy.Program.run invocation
  | .error error =>
    if error.isAsked then
      IO.println error.message
      return 0
    else
      IO.eprintln ("error: " ++ error.message)
      return CfmlTidy.Command.problemCode.toUInt32
