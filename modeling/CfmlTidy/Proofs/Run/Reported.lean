import Mathlib
import CfmlTidy.Proofs.Run.Accounting
import CfmlTidy.Run.Format

/-!
# The results that runs report

A run builds its result by the operations of results alone: each file comes to a partial result, the
partial results are merged, and facts about the run are stated. So whatever is reported is
`Reachable`, and its counters agree with its lists.
-/

namespace CfmlTidy.Run

open RunResult

section Merging

variable {action : String} {outcomes : List Outcome}

/-- A run over results that can be reached comes to one that can be reached. -/
theorem Aggregate.reachable_ofOutcomes
    (parts : ∀ outcome ∈ outcomes, Reachable (outcome.partialResult action)) :
    Reachable (Aggregate.ofOutcomes action outcomes).result := by
  induction outcomes using List.reverseRecOn with
  | nil => exact Reachable.empty
  | append_singleton outcomes outcome ih =>
    obtain ⟨earlier, last⟩ := List.forall_mem_append.mp parts
    rw [Aggregate.ofOutcomes, List.foldl_append]
    exact (ih earlier).merge (last outcome (List.mem_singleton_self outcome))

/-- So does a run with several workers. -/
theorem Coordinator.reachable_run (coordinator : Coordinator)
    (delivered : Channel.Delivers outcomes (coordinator.arrival outcomes))
    (parts : ∀ outcome ∈ outcomes, Reachable (outcome.partialResult coordinator.action)) :
    Reachable (coordinator.run outcomes).result := by
  unfold Coordinator.run
  split_ifs
  · have same := Channel.delivers_iff_perm.mp delivered
    apply Aggregate.reachable_ofOutcomes
    intro outcome listed
    exact parts outcome (same.subset listed)
  · exact Aggregate.reachable_ofOutcomes parts

end Merging

namespace Linter

variable {linter : Linter} {workspace : Workspace} {snippets : Bool} {file : String}
  {result : RunResult}

/-- Every way in which linting a file ends leaves a result that can be reached. -/
theorem Exit.reachable (exit : Exit linter workspace snippets file result) :
    Reachable result := by
  cases exit with
  | skipped => exact Reachable.empty.addWarning _
  | failed _ _ text => exact Reachable.empty.addError text
  | analyzed => exact (Reachable.empty.addViolations _).countFile.countParser _

/-- What a lint run reports is built by the operations of results. -/
theorem lintPath_reachable {arrival : List Outcome → List Outcome} {root : String}
    (delivers : ∀ outcomes, Channel.Delivers outcomes (arrival outcomes))
    (reported : (linter.lintPath workspace arrival root).value = .ok result) :
    Reachable result := by
  unfold lintPath at reported
  cases selected : (selectInputs workspace linter.settings linter.options root).value with
  | error problem =>
    simp only [selected] at reported
    contradiction
  | ok files =>
    simp only [selected] at reported
    obtain rfl := Except.ok.inj reported
    have whole : Reachable
        (linter.lintFiles workspace arrival (workspace.isFile root) files).result := by
      refine Coordinator.reachable_run _ (delivers _) fun outcome listed => ?_
      obtain ⟨file, -, rfl⟩ := List.mem_map.mp listed
      exact (lintFile_exit linter workspace _ file).reachable
    exact ((whole.setMetadata _ _).setMetadata _ _).setMetadata _ _

end Linter

namespace Formatter

variable {formatter : Formatter} {workspace : Workspace} {file : String} {result : RunResult}

/-- The result of a file that was processed can be reached. -/
theorem reachable_processed : Reachable processed := Reachable.empty.countFile

/-- Writing back leaves a result that can be reached. -/
theorem writeBack_reachable (detection : Detection) (before after : List Char) :
    Reachable (writeBack workspace file detection before after).2.value := by
  unfold writeBack
  split
  · exact reachable_processed.addWarning _
  · split
    · exact reachable_processed.addError _
    · exact reachable_processed.addChange _

/-- Formatting a content leaves a result that can be reached. -/
theorem formatContent_reachable (content : List Char) (detection : Detection) :
    Reachable (formatter.formatContent workspace file content detection).2.value := by
  unfold formatContent
  dsimp only
  split_ifs
  · exact reachable_processed
  · exact reachable_processed.addChange _
  · exact writeBack_reachable detection _ _

/-- Formatting a file leaves a result that can be reached. -/
theorem formatFile_reachable (formatter : Formatter) (workspace : Workspace) (file : String) :
    Reachable ((formatter.formatFile workspace file).2.partialResult "format") := by
  unfold formatFile
  split_ifs
  · exact Reachable.empty.addWarning _
  · cases reading : (readDecoded workspace formatter.settings file).value with
    | error cause =>
      simp only [reading]
      exact Reachable.empty.addError _
    | ok decoded =>
      simp only [reading]
      exact formatContent_reachable decoded.1 decoded.2

/-- So does formatting one file after the other. -/
theorem formatEach_reachable {files : List String} {outcome : Outcome}
    (listed : outcome ∈ (formatter.formatEach workspace files).2) :
    Reachable (outcome.partialResult "format") := by
  induction files generalizing workspace with
  | nil => contradiction
  | cons file rest ih =>
    rcases List.mem_cons.mp listed with rfl | later
    · exact formatFile_reachable formatter workspace file
    · exact ih later

/-- What a formatting run reports is built by the operations of results. -/
theorem formatPath_reachable {arrival : List Outcome → List Outcome} {root : String}
    (delivers : ∀ outcomes, Channel.Delivers outcomes (arrival outcomes))
    (reported : (formatter.formatPath workspace arrival root).2.value = .ok result) :
    Reachable result := by
  unfold formatPath at reported
  cases selected : (selectInputs workspace formatter.settings formatter.options root).value with
  | error problem =>
    simp only [selected] at reported
    contradiction
  | ok files =>
    simp only [selected] at reported
    obtain rfl := Except.ok.inj reported
    have whole : Reachable (formatter.formatFiles workspace arrival files).2.result :=
      Coordinator.reachable_run _ (delivers _) fun outcome listed => formatEach_reachable listed
    exact (whole.setMetadata _ _).setMetadata _ _

end Formatter

end CfmlTidy.Run
