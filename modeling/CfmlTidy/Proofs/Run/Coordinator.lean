import Mathlib
import CfmlTidy.Proofs.Result.Totals
import CfmlTidy.Run.Coordinator

/-!
# Workers and the order of arrival

Several workers send what their files came to over a channel, and one receiver merges it as it
arrives. `Channel.Step` says what can happen at any moment; `delivers_iff_perm` says that a finished
run has received every outcome once and none twice, in an order that nothing restricts.

`Collects` says what an aggregate holds in terms of the outcomes that were merged, list by list and
counter by counter, and all but the order within lists is the same for every order of arrival.
`AddsError` says what a breakdown among the outcomes leaves of itself: one error.
-/

namespace CfmlTidy.Run

/-- Where the outcomes of a run with several workers are. -/
structure Channel where
  /-- Files that are not done, by what they will come to. -/
  pending : List Outcome
  /-- What was sent and not yet received, oldest first. -/
  inFlight : List Outcome
  /-- What was received, oldest first. -/
  received : List Outcome

namespace Channel

/-- All outcomes, wherever they are. -/
def everything (channel : Channel) : List Outcome :=
  channel.pending ++ channel.inFlight ++ channel.received

/-- What can happen next: any file is done and its outcome is sent, or the receiver takes what was
sent first. -/
inductive Step : Channel → Channel → Prop where
  /-- A worker is done with a file. -/
  | send {front back inFlight received : List Outcome} {outcome : Outcome} :
    Step ⟨front ++ outcome :: back, inFlight, received⟩
      ⟨front ++ back, inFlight ++ [outcome], received⟩
  /-- The receiver takes an outcome. -/
  | receive {pending inFlight received : List Outcome} {outcome : Outcome} :
    Step ⟨pending, outcome :: inFlight, received⟩ ⟨pending, inFlight, received ++ [outcome]⟩

/-- A step neither drops nor doubles an outcome. -/
theorem Step.conserves {before after : Channel} (step : Step before after) :
    after.everything.Perm before.everything := by
  cases step with
  | @send front back inFlight received outcome =>
    have moved : (front ++ back ++ (inFlight ++ [outcome])).Perm
        (front ++ outcome :: back ++ inFlight) := by
      have last : (front ++ back ++ (inFlight ++ [outcome])).Perm
          (outcome :: (front ++ back ++ inFlight)) := by
        rw [← List.append_assoc]
        exact List.perm_append_singleton _ _
      have middle : (front ++ outcome :: back ++ inFlight).Perm
          (outcome :: (front ++ back ++ inFlight)) := by
        rw [List.append_assoc, List.append_assoc, List.cons_append]
        exact List.perm_middle
      exact last.trans middle.symm
    exact moved.append_right received
  | @receive pending inFlight received outcome =>
    have moved : (inFlight ++ (received ++ [outcome])).Perm (outcome :: inFlight ++ received) := by
      rw [← List.append_assoc]
      exact List.perm_append_singleton _ _
    simp only [everything, List.append_assoc]
    exact moved.append_left pending

/-- Steps neither drop nor double an outcome. -/
theorem conserves_of_steps {before after : Channel}
    (steps : Relation.ReflTransGen Step before after) :
    after.everything.Perm before.everything := by
  induction steps with
  | refl => exact List.Perm.refl _
  | tail _ step ih => exact step.conserves.trans ih

/-- Outcomes that are received in a run that has come to its end. -/
def Delivers (sent received : List Outcome) : Prop :=
  Relation.ReflTransGen Step ⟨sent, [], []⟩ ⟨[], [], received⟩

/-- What is pending can be delivered in any order. -/
theorem steps_of_perm {pending order received : List Outcome} (same : order.Perm pending) :
    Relation.ReflTransGen Step ⟨pending, [], received⟩ ⟨[], [], received ++ order⟩ := by
  induction order generalizing pending received with
  | nil =>
    obtain rfl := List.nil_perm.mp same
    rw [List.append_nil]
  | cons outcome rest ih =>
    obtain ⟨front, back, rfl⟩ := List.append_of_mem (same.subset List.mem_cons_self)
    have others : rest.Perm (front ++ back) := (same.trans List.perm_middle).cons_inv
    have sent : Step ⟨front ++ outcome :: back, [], received⟩
        ⟨front ++ back, [outcome], received⟩ := Step.send
    have taken : Step ⟨front ++ back, [outcome], received⟩
        ⟨front ++ back, [], received ++ [outcome]⟩ := Step.receive
    have later := @ih (front ++ back) (received ++ [outcome]) others
    rw [List.append_assoc, List.singleton_append] at later
    exact Relation.ReflTransGen.head sent (Relation.ReflTransGen.head taken later)

/-- The outcomes of a finished run arrive each once, and in any order. -/
theorem delivers_iff_perm {sent received : List Outcome} :
    Delivers sent received ↔ received.Perm sent := by
  constructor
  · intro delivered
    simpa [everything] using conserves_of_steps delivered
  · intro same
    exact steps_of_perm same

end Channel

/-- What an aggregate holds of the outcomes that were merged into it. -/
structure Collects (action : String) (outcomes : List Outcome) (aggregate : Aggregate) : Prop where
  /-- Violations in the order of the outcomes. -/
  violations : aggregate.result.violations =
    outcomes.flatMap fun outcome => (outcome.partialResult action).violations
  /-- Changes in the order of the outcomes. -/
  changes : aggregate.result.changes =
    outcomes.flatMap fun outcome => (outcome.partialResult action).changes
  /-- Errors in the order of the outcomes. -/
  errors : aggregate.result.errors =
    outcomes.flatMap fun outcome => (outcome.partialResult action).errors
  /-- Warnings in the order of the outcomes. -/
  warnings : aggregate.result.warnings =
    outcomes.flatMap fun outcome => (outcome.partialResult action).warnings
  /-- The total of the statistics. -/
  stats : aggregate.result.stats =
    Stats.total (outcomes.map fun outcome => (outcome.partialResult action).stats)
  /-- Each outcome counts. -/
  progress : aggregate.progress = outcomes.length

/-- Two aggregates that differ at most in the order within their lists, in facts and in the log. -/
structure Agrees (left right : Aggregate) : Prop where
  /-- The same statistics. -/
  stats : left.result.stats = right.result.stats
  /-- The same violations in some order. -/
  violations : left.result.violations.Perm right.result.violations
  /-- The same changes in some order. -/
  changes : left.result.changes.Perm right.result.changes
  /-- The same errors in some order. -/
  errors : left.result.errors.Perm right.result.errors
  /-- The same warnings in some order. -/
  warnings : left.result.warnings.Perm right.result.warnings
  /-- The same number of files done. -/
  progress : left.progress = right.progress

/-- What a breakdown adds to the run of the other files: one error, and nothing beside it but a file
that is done. -/
structure AddsError (text : String) (others run : Aggregate) : Prop where
  /-- The error stands beside those of the other files. -/
  errors : run.result.errors.Perm (text :: others.result.errors)
  /-- The warnings are those of the other files. -/
  warnings : run.result.warnings.Perm others.result.warnings
  /-- The violations are those of the other files. -/
  violations : run.result.violations.Perm others.result.violations
  /-- The changes are those of the other files. -/
  changes : run.result.changes.Perm others.result.changes
  /-- The statistics are those of the other files. -/
  stats : run.result.stats = others.result.stats
  /-- One more file is done. -/
  progress : run.progress = others.progress + 1

section Collecting

variable {action : String} {outcomes others : List Outcome} {aggregate left right : Aggregate}

/-- Merging one more outcome adds what it came to. -/
theorem Collects.add (collects : Collects action outcomes aggregate) (outcome : Outcome) :
    Collects action (outcomes ++ [outcome]) (aggregate.add action outcome) where
  violations := by simp [Aggregate.add, RunResult.merge, collects.violations]
  changes := by simp [Aggregate.add, RunResult.merge, collects.changes]
  errors := by simp [Aggregate.add, RunResult.merge, collects.errors]
  warnings := by simp [Aggregate.add, RunResult.merge, collects.warnings]
  stats := by
    rw [List.map_append, List.map_singleton, Stats.total_concat, ← collects.stats]
    rfl
  progress := by rw [List.length_append, ← collects.progress]; rfl

/-- Merging outcomes in turn collects all of them. -/
theorem collects_ofOutcomes (action : String) (outcomes : List Outcome) :
    Collects action outcomes (Aggregate.ofOutcomes action outcomes) := by
  induction outcomes using List.reverseRecOn with
  | nil => exact ⟨rfl, rfl, rfl, rfl, rfl, rfl⟩
  | append_singleton outcomes outcome ih =>
    rw [Aggregate.ofOutcomes, List.foldl_append]
    exact ih.add outcome

/-- The order of the outcomes shows in the order within lists only. -/
theorem Collects.agrees (first : Collects action outcomes left)
    (second : Collects action others right) (same : outcomes.Perm others) : Agrees left right where
  stats := by rw [first.stats, second.stats, Stats.total_perm (same.map _)]
  violations := by rw [first.violations, second.violations]; exact same.flatMap_right _
  changes := by rw [first.changes, second.changes]; exact same.flatMap_right _
  errors := by rw [first.errors, second.errors]; exact same.flatMap_right _
  warnings := by rw [first.warnings, second.warnings]; exact same.flatMap_right _
  progress := by rw [first.progress, second.progress, same.length_eq]

/-- A run merges the outcomes of its files, as they arrive from several workers or in turn. With
several workers there is a line about them in the log, and nothing else is added. -/
theorem collects_run (coordinator : Coordinator) (outcomes : List Outcome) :
    Collects coordinator.action
      (if coordinator.isParallel outcomes.length then coordinator.arrival outcomes else outcomes)
      (coordinator.run outcomes) := by
  rw [Coordinator.run]
  split_ifs
  · obtain ⟨violations, changes, errors, warnings, stats, progress⟩ :=
      collects_ofOutcomes coordinator.action (coordinator.arrival outcomes)
    exact ⟨violations, changes, errors, warnings, stats, progress⟩
  · exact collects_ofOutcomes coordinator.action outcomes

/-- A run collects what its files came to in some order. -/
theorem exists_collects_run (coordinator : Coordinator) (outcomes : List Outcome)
    (delivered : Channel.Delivers outcomes (coordinator.arrival outcomes)) :
    ∃ order, order.Perm outcomes ∧
      Collects coordinator.action order (coordinator.run outcomes) := by
  refine ⟨_, ?_, collects_run coordinator outcomes⟩
  split_ifs
  · exact Channel.delivers_iff_perm.mp delivered
  · exact List.Perm.refl _

/-- A breakdown among the outcomes adds its error to what the others come to. -/
theorem Collects.addsError (collects : Collects action outcomes left)
    (rest : Collects action others right) {outcome : Outcome} {crash : Option String}
    (broke : outcome.result = .error crash) (same : outcomes.Perm (outcome :: others)) :
    AddsError ("Failed to " ++ action ++ " " ++ outcome.file ++ ": " ++ crash.getD "unknown panic")
      right left := by
  have part : outcome.partialResult action = RunResult.empty.addError
      ("Failed to " ++ action ++ " " ++ outcome.file ++ ": " ++ crash.getD "unknown panic") := by
    rw [Outcome.partialResult, broke]
    rfl
  have lists {β : Type} (list : RunResult → List β) :
      (outcomes.flatMap fun outcome => list (outcome.partialResult action)).Perm
        (list (outcome.partialResult action) ++
          others.flatMap fun outcome => list (outcome.partialResult action)) :=
    same.flatMap_right _
  have last : outcomes.Perm (others ++ [outcome]) :=
    same.trans (List.perm_append_singleton outcome others).symm
  simp only [part] at lists
  constructor
  · rw [collects.errors, rest.errors]
    exact lists RunResult.errors
  · rw [collects.warnings, rest.warnings]
    exact lists RunResult.warnings
  · rw [collects.violations, rest.violations]
    exact lists RunResult.violations
  · rw [collects.changes, rest.changes]
    exact lists RunResult.changes
  · rw [collects.stats, rest.stats, Stats.total_perm (last.map _), List.map_append,
      List.map_singleton, part]
    exact Stats.total_concat_empty _
  · rw [collects.progress, rest.progress, same.length_eq, List.length_cons]

end Collecting

/-- What a file comes to when it is processed for itself: what is logged, and a partial result or a
breakdown. -/
def outcomeOf (unit : String → List LogLine × Except (Option String) RunResult) (file : String) :
    Outcome :=
  ⟨file, (unit file).1, (unit file).2⟩

/-- What files come to when each is processed for itself. -/
def outcomesOf (unit : String → List LogLine × Except (Option String) RunResult)
    (files : List String) : List Outcome :=
  files.map (outcomeOf unit)

/-- A run of files, whatever is done to them and in whatever order the outcomes arrive, holds what
each file came to once: nothing is dropped and nothing merged twice, and of a file that was processed
it is the result as it was. The run agrees with that of a single worker. A file whose processing
breaks down adds to the run of the other files an error that names it, and nothing else. -/
theorem run_agrees (unit : String → List LogLine × Except (Option String) RunResult)
    (files : List String) (coordinator : Coordinator)
    (delivered : Channel.Delivers (outcomesOf unit files)
      (coordinator.arrival (outcomesOf unit files))) :
    (∃ order, order.Perm (outcomesOf unit files) ∧
        Collects coordinator.action order (coordinator.run (outcomesOf unit files))) ∧
      (∀ file result, (unit file).2 = .ok result →
        (outcomeOf unit file).partialResult coordinator.action = result) ∧
      Agrees (coordinator.run (outcomesOf unit files))
        (Coordinator.run { coordinator with workers := 1 } (outcomesOf unit files)) ∧
      ∀ front file back crash, files = front ++ file :: back → (unit file).2 = .error crash →
        AddsError ("Failed to " ++ coordinator.action ++ " " ++ file ++ ": " ++
            crash.getD "unknown panic")
          (Coordinator.run { coordinator with workers := 1 } (outcomesOf unit (front ++ back)))
          (coordinator.run (outcomesOf unit files)) := by
  have alone (files : List String) : Collects coordinator.action (outcomesOf unit files)
      (Coordinator.run { coordinator with workers := 1 } (outcomesOf unit files)) :=
    collects_ofOutcomes coordinator.action (outcomesOf unit files)
  obtain ⟨order, same, collects⟩ := exists_collects_run coordinator _ delivered
  refine ⟨⟨order, same, collects⟩, ?_, collects.agrees (alone files) same, ?_⟩
  · intro file result done
    have whole : (outcomeOf unit file).result = .ok result := done
    rw [Outcome.partialResult, whole]
  · rintro front file back crash rfl broke
    have failed : (outcomeOf unit file).result = .error crash := broke
    have moved : (outcomesOf unit (front ++ file :: back)).Perm
        (outcomeOf unit file :: outcomesOf unit (front ++ back)) :=
      List.perm_middle.map (outcomeOf unit)
    have named : (outcomeOf unit file).file = file := rfl
    have added := collects.addsError (alone (front ++ back)) failed (same.trans moved)
    rwa [named] at added

/-- A unit that breaks down on one file and counts any other. -/
def brittle (file : String) : List LogLine × Except (Option String) RunResult :=
  if file = "a.cfc" then ([], .error (some "boom"))
  else ([], .ok (RunResult.empty.updateStats (·.countFile)))

/-- Two workers whose outcomes arrive in the reverse order. -/
def reversed : Coordinator := ⟨2, "lint", List.reverse⟩

/-- The breakdown of one file of two, received last, is an error beside the other file. -/
theorem run_agrees_reversed :
    Channel.Delivers (outcomesOf brittle ["a.cfc", "b.cfc"])
        (reversed.arrival (outcomesOf brittle ["a.cfc", "b.cfc"])) ∧
      reversed.isParallel 2 = true ∧ (brittle "a.cfc").2 = .error (some "boom") ∧
      AddsError "Failed to lint a.cfc: boom"
        (Coordinator.run { reversed with workers := 1 } (outcomesOf brittle ["b.cfc"]))
        (reversed.run (outcomesOf brittle ["a.cfc", "b.cfc"])) := by
  have delivered : Channel.Delivers (outcomesOf brittle ["a.cfc", "b.cfc"])
      (reversed.arrival (outcomesOf brittle ["a.cfc", "b.cfc"])) :=
    Channel.delivers_iff_perm.mpr (List.reverse_perm _)
  have broke : (brittle "a.cfc").2 = .error (some "boom") := by rw [brittle, if_pos rfl]
  have added := (run_agrees brittle ["a.cfc", "b.cfc"] reversed delivered).2.2.2
    [] "a.cfc" ["b.cfc"] (some "boom") rfl broke
  have text : "Failed to " ++ reversed.action ++ " " ++ "a.cfc" ++ ": " ++
      (some "boom").getD "unknown panic" = "Failed to lint a.cfc: boom" := by decide +kernel
  rw [text, List.nil_append] at added
  exact ⟨delivered, by decide, broke, added⟩

end CfmlTidy.Run
