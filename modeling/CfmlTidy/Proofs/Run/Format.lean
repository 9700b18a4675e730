import Mathlib
import CfmlTidy.Run.Format
import CfmlTidy.Proofs.Encoding.Rewriting
import CfmlTidy.Proofs.Workspace

/-!
# What formatting a file does

`Effect` lists everything that formatting one file can come to: the workspace after it and the
changes it reports. `formatFile_effect` says that nothing else happens, and all that is said
about formatting runs is taken from there. Writing does not fail: what is written was read before.
-/

namespace CfmlTidy.Run

/-- The changes that processing a file reports. -/
def Outcome.changes (outcome : Outcome) : List FormattingChange :=
  (outcome.partialResult "format").changes

namespace Formatter

open Encoding

variable {formatter : Formatter} {workspace after : Workspace} {file : String}

/-- The bytes that formatting a file goes on with: those of a readable file within the limit. -/
def accepted? (formatter : Formatter) (workspace : Workspace) (file : String) :
    Option (List UInt8) :=
  if isTooLarge workspace formatter.settings file then none else (workspace.read file).toOption

/-- The text of the bytes of a file. -/
def textOf (formatter : Formatter) (bytes : List UInt8) : List Char :=
  (decodeBytes bytes formatter.settings.encoding).1

/-- The text of the bytes of a file in layout. -/
def formatted (formatter : Formatter) (bytes : List UInt8) : List Char :=
  Layout.format formatter.indent (formatter.textOf bytes)

/-- The change of a file with some bytes. -/
def changeFrom (formatter : Formatter) (file : String) (bytes : List UInt8) : FormattingChange :=
  changeOf file (formatter.textOf bytes) (formatter.formatted bytes)

/-- Everything that formatting a file can come to: the workspace after it and the changes that it
reports. -/
inductive Effect (formatter : Formatter) (workspace : Workspace) (file : String) :
    Workspace → List FormattingChange → Prop where
  /-- The file is too large or cannot be read. -/
  | skipped (absent : formatter.accepted? workspace file = none) :
    Effect formatter workspace file workspace []
  /-- The text is in layout. -/
  | settled {bytes : List UInt8} (found : formatter.accepted? workspace file = some bytes)
    (same : formatter.formatted bytes = formatter.textOf bytes) :
    Effect formatter workspace file workspace []
  /-- The text is not in layout, and the run is dry. -/
  | reported {bytes : List UInt8} (found : formatter.accepted? workspace file = some bytes)
    (differs : formatter.formatted bytes ≠ formatter.textOf bytes)
    (dry : formatter.dryRun = true) :
    Effect formatter workspace file workspace [formatter.changeFrom file bytes]
  /-- The text is not in layout, and its encoding was not found. -/
  | refused {bytes : List UInt8} (found : formatter.accepted? workspace file = some bytes)
    (differs : formatter.formatted bytes ≠ formatter.textOf bytes)
    (live : formatter.dryRun = false) (lost : detect bytes = .fallback) :
    Effect formatter workspace file workspace []
  /-- The text is not in layout and was written back. -/
  | rewritten {bytes rewritten : List UInt8} {after : Workspace}
    (found : formatter.accepted? workspace file = some bytes)
    (differs : formatter.formatted bytes ≠ formatter.textOf bytes)
    (live : formatter.dryRun = false)
    (encoded : (detect bytes).encode? (formatter.formatted bytes) = some rewritten)
    (written : workspace.write file rewritten = .ok after) :
    Effect formatter workspace file after [formatter.changeFrom file bytes]

/-- Accepted bytes are the bytes of the file. -/
theorem read_of_accepted {bytes : List UInt8}
    (found : formatter.accepted? workspace file = some bytes) :
    workspace.read file = .ok bytes := by
  unfold accepted? at found
  split_ifs at found
  cases reading : workspace.read file with
  | error cause => simp [reading, Except.toOption] at found
  | ok contents =>
    rw [reading] at found
    exact congrArg Except.ok (Option.some.inj found)

/-- Readable bytes are accepted unless the file is too large. -/
theorem accepted?_eq {bytes : List UInt8} (readable : workspace.read file = .ok bytes) :
    formatter.accepted? workspace file =
      if isTooLarge workspace formatter.settings file then none else some bytes := by
  rw [accepted?, readable]
  rfl

/-- What writing back the text of accepted bytes comes to. -/
theorem writeBack_effect {bytes : List UInt8}
    (found : formatter.accepted? workspace file = some bytes)
    (differs : formatter.formatted bytes ≠ formatter.textOf bytes)
    (live : formatter.dryRun = false) :
    Effect formatter workspace file
      (writeBack workspace file (detect bytes) (formatter.textOf bytes)
        (formatter.formatted bytes)).1
      (writeBack workspace file (detect bytes) (formatter.textOf bytes)
        (formatter.formatted bytes)).2.value.changes := by
  unfold writeBack
  cases encoded : (detect bytes).encode? (formatter.formatted bytes) with
  | none => exact Effect.refused found differs live (encode?_format_eq_none_iff.mp encoded)
  | some rewritten =>
    obtain ⟨after, written, -⟩ := Workspace.write_of_read (read_of_accepted found) rewritten
    simp only [written]
    exact Effect.rewritten found differs live encoded written

/-- What formatting the text of accepted bytes comes to. -/
theorem formatContent_effect {bytes : List UInt8}
    (found : formatter.accepted? workspace file = some bytes) :
    Effect formatter workspace file
      (formatter.formatContent workspace file (formatter.textOf bytes) (detect bytes)).1
      (formatter.formatContent workspace file (formatter.textOf bytes)
        (detect bytes)).2.value.changes := by
  unfold formatContent
  by_cases same : Layout.format formatter.indent (formatter.textOf bytes) = formatter.textOf bytes
  · rw [if_pos same]
    exact Effect.settled found same
  · rw [if_neg same]
    by_cases dry : formatter.dryRun = true
    · rw [if_pos dry]
      exact Effect.reported found same dry
    · rw [if_neg dry]
      exact writeBack_effect found same (Bool.eq_false_iff.mpr dry)

/-- Formatting a file has one of its effects. -/
theorem formatFile_effect (formatter : Formatter) (workspace : Workspace) (file : String) :
    Effect formatter workspace file (formatter.formatFile workspace file).1
      (formatter.formatFile workspace file).2.changes := by
  unfold formatFile
  by_cases large : isTooLarge workspace formatter.settings file = true
  · rw [if_pos large]
    exact Effect.skipped (if_pos large)
  · rw [if_neg large]
    cases reading : workspace.read file with
    | error cause =>
      simp only [readDecoded, reading]
      exact Effect.skipped (by rw [accepted?, if_neg large, reading]; rfl)
    | ok bytes =>
      have found : formatter.accepted? workspace file = some bytes := by
        rw [accepted?, if_neg large, reading]
        rfl
      simp only [readDecoded, reading, decodeBytes_detection]
      exact formatContent_effect found

/-- Formatting a file leaves all paths leading where they led, and what stands at the end of other
paths as it was. -/
theorem Effect.frame {changes : List FormattingChange}
    (effect : Effect formatter workspace file after changes) :
    (∀ other, after.resolve other = workspace.resolve other) ∧
      ∀ other, workspace.Apart file other → after.find other = workspace.find other := by
  cases effect with
  | skipped | settled | reported | refused => exact ⟨fun _ => rfl, fun _ _ => rfl⟩
  | rewritten found _ _ _ written =>
    obtain ⟨final, again, -, frame⟩ := Workspace.write_of_read (read_of_accepted found) _
    obtain rfl := Except.ok.inj (written.symm.trans again)
    exact frame

/-- The change that brings a file into layout. -/
def pending? (formatter : Formatter) (workspace : Workspace) (file : String) :
    Option FormattingChange :=
  (formatter.accepted? workspace file).bind fun bytes =>
    if formatter.formatted bytes = formatter.textOf bytes then none
    else some (formatter.changeFrom file bytes)

/-- Whether a file is not in layout and its encoding was not found. -/
def isWithheld (formatter : Formatter) (workspace : Workspace) (file : String) : Bool :=
  (formatter.accepted? workspace file).any fun bytes =>
    formatter.formatted bytes != formatter.textOf bytes && detect bytes == .fallback

/-- The change that formatting a file reports: a run that writes reports none of a file that it
cannot write back. -/
def change? (formatter : Formatter) (workspace : Workspace) (file : String) :
    Option FormattingChange :=
  if formatter.dryRun = false ∧ formatter.isWithheld workspace file = true then none
  else formatter.pending? workspace file

/-- Formatting a file reports its change. -/
theorem Effect.changes_eq {changes : List FormattingChange}
    (effect : Effect formatter workspace file after changes) :
    changes = (formatter.change? workspace file).toList := by
  cases effect with
  | skipped absent => simp [change?, pending?, absent]
  | settled found same => simp [change?, pending?, found, same]
  | reported found differs dry => simp [change?, pending?, found, differs, dry]
  | refused found differs live lost => simp [change?, isWithheld, found, differs, live, lost]
  | rewritten found differs live encoded _ =>
    have known := Detection.ne_fallback_of_encode? encoded
    simp [change?, isWithheld, pending?, found, differs, known]

/-- What formatting a file goes by is what stands at the end of its path. -/
theorem change?_congr (same : after.find file = workspace.find file) :
    formatter.change? after file = formatter.change? workspace file := by
  unfold change? isWithheld pending? accepted? isTooLarge Workspace.size? Workspace.read
  rw [same]

/-- Files that lead to different places are each formatted as if the others were not there. -/
theorem changes_formatEach {files : List String} (apart : files.Pairwise workspace.Apart) :
    (formatter.formatEach workspace files).2.flatMap Outcome.changes =
      files.filterMap (formatter.change? workspace) := by
  induction files generalizing workspace with
  | nil => rfl
  | cons file rest ih =>
    obtain ⟨away, others⟩ := List.pairwise_cons.mp apart
    have effect := formatFile_effect formatter workspace file
    obtain ⟨leads, finds⟩ := effect.frame
    have later := @ih (formatter.formatFile workspace file).1 <| by
      unfold Workspace.Apart at others ⊢
      simpa only [leads] using others
    have same : rest.filterMap (formatter.change? (formatter.formatFile workspace file).1) =
        rest.filterMap (formatter.change? workspace) :=
      List.filterMap_congr fun other listed => change?_congr (finds other (away other listed))
    rw [formatEach, List.flatMap_cons, effect.changes_eq, later, same, List.filterMap_cons]
    cases formatter.change? workspace file <;> rfl

end Formatter

/-- The changes of a merged result are those of its parts in order. -/
theorem Aggregate.changes_foldl_add (aggregate : Aggregate) (outcomes : List Outcome) :
    (outcomes.foldl (add "format") aggregate).result.changes =
      aggregate.result.changes ++ outcomes.flatMap Outcome.changes := by
  induction outcomes generalizing aggregate with
  | nil => simp
  | cons outcome rest ih =>
    rw [List.foldl_cons, ih, List.flatMap_cons, ← List.append_assoc]
    rfl

/-- A single worker merges outcomes in the order of the files. -/
theorem Coordinator.run_alone (action : String) (arrival : List Outcome → List Outcome)
    (outcomes : List Outcome) :
    Coordinator.run ⟨1, action, arrival⟩ outcomes = Aggregate.ofOutcomes action outcomes := rfl

/-- Files processed in turn report their changes in order. -/
theorem Formatter.changes_formatFiles {formatter : Formatter} {workspace : Workspace}
    {files : List String} (arrival : List Outcome → List Outcome)
    (alone : formatter.options.workers formatter.settings files.length = 1)
    (apart : files.Pairwise workspace.Apart) :
    (formatter.formatFiles workspace arrival files).2.result.changes =
      files.filterMap (formatter.change? workspace) := by
  rw [← changes_formatEach apart, formatFiles]
  simp only [alone, Coordinator.run_alone, Aggregate.ofOutcomes, Aggregate.changes_foldl_add]
  rfl

/-- A run that writes, without settings. -/
def Formatter.plain : Formatter := ⟨⟨.obj [], "/", none⟩, .default, false⟩

/-- A workspace with one file. -/
def Formatter.page (bytes : List UInt8) : Workspace := ⟨[(["page.cfm"], .file bytes)], []⟩

end CfmlTidy.Run
