/-!
# The log

What a run says about its own progress, line by line, and how much of it is shown. A step that
logs returns its lines beside its value, so that a log is part of what a step computes.
-/

namespace CfmlTidy

/-- How much a log line matters. -/
inductive LogLevel where
  /-- Something failed. -/
  | error
  /-- Something is not as expected. -/
  | warn
  /-- A step of the run. -/
  | info
  /-- A detail of a step. -/
  | debug
  /-- Everything else. -/
  | trace
deriving Repr, DecidableEq, Inhabited

namespace LogLevel

/-- The name in front of a line. -/
def name : LogLevel → String
  | error => "ERROR"
  | warn => "WARN"
  | info => "INFO"
  | debug => "DEBUG"
  | trace => "TRACE"

/-- The name as a threshold. -/
def directive : LogLevel → String
  | error => "error"
  | warn => "warn"
  | info => "info"
  | debug => "debug"
  | trace => "trace"

/-- Rank, from zero for what matters most. -/
def rank : LogLevel → Nat
  | error => 0
  | warn => 1
  | info => 2
  | debug => 3
  | trace => 4

end LogLevel

/-- A line of the log. -/
structure LogLine where
  /-- How much it matters. -/
  level : LogLevel
  /-- What it says. -/
  text : String
deriving Repr, DecidableEq, Inhabited

/-- The line with its level in front. -/
def LogLine.render (line : LogLine) : String := line.level.name ++ " " ++ line.text

/-- How much of the log is shown. -/
inductive Verbosity where
  /-- Failures only. -/
  | quiet
  /-- Warnings too. -/
  | normal
  /-- More with every level. -/
  | verbose (level : Nat)
deriving Repr, DecidableEq, Inhabited

namespace Verbosity

/-- The verbosity of the flags; quiet wins over any number of verbose flags. -/
def ofFlags (quiet : Bool) (verbose : Nat) : Verbosity :=
  if quiet then .quiet else if verbose = 0 then .normal else .verbose verbose

/-- The least important level that is shown. -/
def threshold : Verbosity → LogLevel
  | quiet => .error
  | normal => .warn
  | verbose 1 => .info
  | verbose 2 => .debug
  | verbose _ => .trace

/-- The threshold by its name. -/
def directive (verbosity : Verbosity) : String := verbosity.threshold.directive

/-- Whether nothing but failures is shown. -/
def isQuiet (verbosity : Verbosity) : Bool := verbosity == .quiet

/-- Whether a line is shown. -/
def shows (verbosity : Verbosity) (line : LogLine) : Bool :=
  line.level.rank ≤ verbosity.threshold.rank

end Verbosity

/-- A value with what was logged on the way to it. -/
structure Logged (α : Type) where
  /-- The lines in order. -/
  log : List LogLine
  /-- The value. -/
  value : α

namespace Logged

/-- A value that took no log line. -/
def quietly {α : Type} (value : α) : Logged α := ⟨[], value⟩

/-- A value with one log line. -/
def noting {α : Type} (level : LogLevel) (text : String) (value : α) : Logged α :=
  ⟨[⟨level, text⟩], value⟩

end Logged

end CfmlTidy
