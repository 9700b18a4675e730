import CfmlTidy.Report.Render
import CfmlTidy.Workspace

/-!
# Sessions

What a command works on and leaves behind: the workspace, the log, and what it prints. A task is
a step of a command. It either comes to a value or ends in a problem, and in both cases keeps what
it did before.
-/

namespace CfmlTidy.Command

/-- What a command works on and leaves behind. -/
structure Session where
  /-- The files. -/
  workspace : Workspace
  /-- The log. -/
  log : List LogLine
  /-- What was printed. -/
  stdout : String
  /-- What was printed about problems. -/
  stderr : String

/-- A session that has done nothing yet. -/
def Session.start (workspace : Workspace) : Session := ⟨workspace, [], "", ""⟩

/-- A step of a command. -/
abbrev Task := ExceptT Problem (StateM Session)

namespace Task

/-- The workspace as it is. -/
def workspace : Task Workspace := do return (← get).workspace

/-- Replace the workspace. -/
def setWorkspace (next : Workspace) : Task Unit :=
  modify fun session => { session with workspace := next }

/-- Add lines to the log. -/
def logging (lines : List LogLine) : Task Unit :=
  modify fun session => { session with log := session.log ++ lines }

/-- Print a text. -/
def print (text : String) : Task Unit :=
  modify fun session => { session with stdout := session.stdout ++ text }

/-- Print a text about problems. -/
def complain (text : String) : Task Unit :=
  modify fun session => { session with stderr := session.stderr ++ text }

/-- The value of a computation that can have a problem. -/
def ofExcept {α : Type} : Except Problem α → Task α
  | .ok value => pure value
  | .error problem => throw problem

/-- The value of a computation that logs and can have a problem. -/
def ofLogged {α : Type} (logged : Logged (Except Problem α)) : Task α := do
  logging logged.log
  ofExcept logged.value

end Task

end CfmlTidy.Command
