import CfmlTidy.Log
import CfmlTidy.Result.Run
import CfmlTidy.Rule.Basic

/-!
# Coordination of a run

A run processes its files one by one and merges what each came to. With several workers the
partial results arrive in an order that nothing fixes, so that order is a parameter here. A file
whose processing breaks down contributes one error that names it, and nothing else.
-/

namespace CfmlTidy.Run

/-- What processing a file came to: a partial result, or a breakdown with the message it left. -/
structure Outcome where
  /-- The file. -/
  file : String
  /-- What was logged. -/
  log : List LogLine
  /-- The partial result or the breakdown. -/
  result : Except (Option String) RunResult

/-- What is said of a file whose processing broke down. -/
def breakdownText (action file : String) (crash : Option String) : String :=
  "Failed to " ++ action ++ " " ++ file ++ ": " ++ crashText crash

/-- The partial result of a file. -/
def Outcome.partialResult (action : String) (outcome : Outcome) : RunResult :=
  match outcome.result with
  | .ok result => result
  | .error crash => RunResult.empty.addError (breakdownText action outcome.file crash)

/-- The log of a file. -/
def Outcome.fullLog (outcome : Outcome) : List LogLine :=
  match outcome.result with
  | .ok _ => outcome.log
  | .error crash =>
    outcome.log ++
      [⟨.warn, "Unit for " ++ outcome.file ++ " panicked: " ++ crashText crash⟩]

/-- What the files of a run came to together. -/
structure Aggregate where
  /-- The merged result. -/
  result : RunResult
  /-- How many files are done. -/
  progress : Nat
  /-- What was logged. -/
  log : List LogLine

namespace Aggregate

/-- Nothing done yet. -/
def empty : Aggregate := ⟨.empty, 0, []⟩

/-- Merge what one more file came to. -/
def add (action : String) (aggregate : Aggregate) (outcome : Outcome) : Aggregate where
  result := aggregate.result.merge (outcome.partialResult action)
  progress := aggregate.progress + 1
  log := aggregate.log ++ outcome.fullLog

/-- Merge outcomes in the order in which they come. -/
def ofOutcomes (action : String) (outcomes : List Outcome) : Aggregate :=
  outcomes.foldl (add action) empty

end Aggregate

/-- How the files of a run are shared out. -/
structure Coordinator where
  /-- The number of workers. -/
  workers : Nat
  /-- What is done to files, as messages name it. -/
  action : String
  /-- The order in which the outcomes of several workers arrive. -/
  arrival : List Outcome → List Outcome

namespace Coordinator

/-- Whether outcomes come from several workers. -/
def isParallel (coordinator : Coordinator) (fileCount : Nat) : Bool :=
  1 < coordinator.workers && 1 < fileCount

/-- Merge the outcomes of the files of a run: in the order of the files, or as they arrive from
several workers. -/
def run (coordinator : Coordinator) (outcomes : List Outcome) : Aggregate :=
  if coordinator.isParallel outcomes.length then
    let merged := Aggregate.ofOutcomes coordinator.action (coordinator.arrival outcomes)
    { merged with
      log := ⟨.debug, "Processing " ++ toString outcomes.length ++ " files on " ++
        toString coordinator.workers ++ " workers"⟩ :: merged.log }
  else Aggregate.ofOutcomes coordinator.action outcomes

end Coordinator

end CfmlTidy.Run
