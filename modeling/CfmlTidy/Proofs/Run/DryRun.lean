import Mathlib
import CfmlTidy.Proofs.Run.Format

/-!
# What a dry run foretells

A dry run does not ask whether the encoding of a file can be reproduced, and the run that writes
does. A file whose encoding was not found and whose text is not in layout is therefore reported by
the dry run and left alone by the other. These files are all that the two runs differ in.
-/

namespace CfmlTidy.Run.Formatter

open Encoding

variable {formatter : Formatter} {workspace : Workspace} {file : String}

/-- A change names its file. -/
theorem file_of_pending? {change : FormattingChange}
    (pending : formatter.pending? workspace file = some change) : change.file = file := by
  obtain ⟨bytes, -, chosen⟩ := Option.bind_eq_some_iff.mp pending
  split_ifs at chosen
  rw [← Option.some.inj chosen]
  rfl

/-- There is a change that would bring a withheld file into layout. -/
theorem pending?_of_withheld (withheld : formatter.isWithheld workspace file = true) :
    ∃ change, formatter.pending? workspace file = some change := by
  unfold isWithheld at withheld
  cases found : formatter.accepted? workspace file with
  | none =>
    rw [found] at withheld
    contradiction
  | some bytes =>
    rw [found, Option.any_some, Bool.and_eq_true, bne_iff_ne] at withheld
    rw [pending?, found, Option.bind_some, if_neg withheld.1]
    exact ⟨_, rfl⟩

/-- A dry run reports every change. -/
theorem change?_dry :
    change? { formatter with dryRun := true } workspace file =
      formatter.pending? workspace file :=
  if_neg (by simp)

/-- A run that writes reports every change but those of withheld files. -/
theorem change?_live :
    change? { formatter with dryRun := false } workspace file =
      if formatter.isWithheld workspace file = true then none
      else formatter.pending? workspace file := by
  by_cases withheld : formatter.isWithheld workspace file = true
  · rw [if_pos withheld]
    exact if_pos ⟨rfl, withheld⟩
  · rw [if_neg withheld]
    exact if_neg fun both => withheld both.2

/-- For files that lead to different places and are processed in turn, a dry run reports the same
changes as the run that writes exactly when no file is withheld. A change names its file, so one
that is reported for a withheld file is missing in the other run, whatever else that run reports. -/
theorem dryRun_changes_iff {files : List String} (arrival : List Outcome → List Outcome)
    (alone : formatter.options.workers formatter.settings files.length = 1)
    (apart : files.Pairwise workspace.Apart) :
    (formatFiles { formatter with dryRun := true } workspace arrival files).2.result.changes =
        (formatFiles { formatter with dryRun := false } workspace arrival files).2.result.changes ↔
      ∀ file ∈ files, formatter.isWithheld workspace file = false := by
  have dry := @changes_formatFiles { formatter with dryRun := true } _ _ arrival alone apart
  have live := @changes_formatFiles { formatter with dryRun := false } _ _ arrival alone apart
  rw [dry, live]
  constructor
  · intro same file listed
    by_contra withheld
    rw [Bool.not_eq_false] at withheld
    obtain ⟨change, pending⟩ := pending?_of_withheld withheld
    have reported := List.mem_filterMap.mpr ⟨file, listed, change?_dry.trans pending⟩
    rw [same] at reported
    obtain ⟨other, -, written⟩ := List.mem_filterMap.mp reported
    rw [change?_live] at written
    split_ifs at written with free
    obtain rfl := (file_of_pending? written).symm.trans (file_of_pending? pending)
    exact free withheld
  · intro none
    refine List.filterMap_congr fun file listed => ?_
    rw [change?_dry, change?_live, none file listed, if_neg Bool.false_ne_true]

/-- A dry run foretells that a trailing space is dropped. -/
theorem dryRun_changes_space :
    (formatFiles { plain with dryRun := true } (page [0x61, 0x20, 0x0A]) id
        ["page.cfm"]).2.result.changes =
      (formatFiles { plain with dryRun := false } (page [0x61, 0x20, 0x0A]) id
        ["page.cfm"]).2.result.changes := by
  refine (dryRun_changes_iff id rfl (List.pairwise_singleton _ _)).mpr ?_
  decide +kernel

/-- A dry run reports a change of a file that the run that writes leaves alone. -/
theorem dryRun_changes_undetected :
    (formatFiles { plain with dryRun := true } (page [0x78, 0x01, 0x02, 0x81, 0x20, 0x20, 0x0A])
        id ["page.cfm"]).2.result.changes.length = 1 ∧
      (formatFiles { plain with dryRun := false } (page [0x78, 0x01, 0x02, 0x81, 0x20, 0x20, 0x0A])
        id ["page.cfm"]).2.result.changes = [] := by
  decide +kernel

end CfmlTidy.Run.Formatter
