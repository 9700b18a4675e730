import CfmlTidy.Log
import CfmlTidy.Parse.Backend
import CfmlTidy.Rule.Registry

/-!
# Options of a run

What the caller of a run chooses beside the settings.
-/

namespace CfmlTidy

/-- What the caller of a run chooses beside the settings. -/
structure RunOptions where
  /-- How files are routed to parsers. -/
  mode : ParserMode
  /-- Rules switched on and off by hand. -/
  rules : RuleSelection
  /-- The number of workers, in place of the setting. -/
  maxThreads : Option Nat
  /-- Patterns added to the include patterns of the settings. -/
  includes : List String
  /-- Patterns added to the exclude patterns of the settings. -/
  excludes : List String

namespace RunOptions

/-- Nothing chosen. -/
def default : RunOptions := ⟨.auto, .empty, none, [], []⟩

/-- The number of workers that settings and the caller ask for; a negative setting counts as
one. -/
def requestedWorkers (options : RunOptions) (settings : Settings) : Nat :=
  match options.maxThreads with
  | some count => count
  | none => if settings.maxThreads < 0 then 1 else settings.maxThreads.toNat

/-- The number of workers for a number of files; one means that files are processed in turn. -/
def workers (options : RunOptions) (settings : Settings) (fileCount : Nat) : Nat :=
  if !settings.parallel || fileCount ≤ 1 then 1
  else max (options.requestedWorkers settings) 1

end RunOptions

end CfmlTidy
