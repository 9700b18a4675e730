/-!
# Starting programs

A validator of a script is a program of its own. What a program does is not known here: starting one
is a function that the surroundings of a run provide, and everything else is the same whatever
programs do. A program that was started is known by how it ended and by what it wrote.
-/

namespace CfmlTidy

namespace Launcher

/-- How a program ended. -/
inductive Status where
  /-- By itself, with a code. -/
  | exited (code : Nat)
  /-- By a signal, with or without an image of its memory left behind. -/
  | signalled (signal : Nat) (dumped : Bool)
deriving Repr, DecidableEq

/-- Names of signals. -/
def signalNames : List (Nat × String) :=
  [(1, "SIGHUP"), (2, "SIGINT"), (3, "SIGQUIT"), (4, "SIGILL"), (5, "SIGTRAP"), (6, "SIGABRT"),
    (7, "SIGBUS"), (8, "SIGFPE"), (9, "SIGKILL"), (10, "SIGUSR1"), (11, "SIGSEGV"),
    (12, "SIGUSR2"), (13, "SIGPIPE"), (14, "SIGALRM"), (15, "SIGTERM"), (16, "SIGSTKFLT"),
    (17, "SIGCHLD"), (18, "SIGCONT"), (19, "SIGSTOP"), (20, "SIGTSTP"), (21, "SIGTTIN"),
    (22, "SIGTTOU"), (23, "SIGURG"), (24, "SIGXCPU"), (25, "SIGXFSZ"), (26, "SIGVTALRM"),
    (27, "SIGPROF"), (28, "SIGWINCH"), (29, "SIGIO"), (30, "SIGPWR"), (31, "SIGSYS")]

/-- The status in words. -/
def Status.text : Status → String
  | exited code => "exit status: " ++ toString code
  | signalled signal dumped =>
    "signal: " ++ toString signal ++
      (match signalNames.lookup signal with
      | some name => " (" ++ name ++ ")"
      | none => "") ++
      if dumped then " (core dumped)" else ""

/-- What a program that was started leaves behind. -/
structure Outcome where
  /-- How it ended. -/
  status : Status
  /-- What it wrote to its output. -/
  output : List UInt8
  /-- What it wrote to its error output. -/
  errors : List UInt8

end Launcher

/-- A way to start programs. Keeping it as an inferred parameter lets linters and commands carry it
without naming it at every step. -/
class Launcher where
  /-- What a program comes to with its arguments and an input, or why it could not be run. The files
  of a run are not touched by it. -/
  start : String → List String → List UInt8 → Except String Launcher.Outcome

end CfmlTidy
