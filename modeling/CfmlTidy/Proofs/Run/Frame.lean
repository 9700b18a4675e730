import Mathlib
import CfmlTidy.Proofs.Run.Coordinator
import CfmlTidy.Proofs.Run.DryRun

/-!
# What a formatting run leaves alone

A dry run leaves the workspace as it is. A run that writes gives other bytes to the files whose
changes it reports, and to no others. That a reported file has other bytes than before is a fact
about encodings: no bytes are written back for two texts. That the rest stays is a fact about
files: what is written to one shows at no place but its own.

`rewritten?` says what the run makes of a file, and `entry?_formatEach_at` and
`entry?_formatEach_away` say that this is what stands at each place when the run is over.
-/

namespace CfmlTidy.Run.Formatter

open Encoding

variable {formatter : Formatter} {workspace after : Workspace} {file : String}
  {files names : List String} {changes : List FormattingChange}

/-- The bytes that a run that writes gives to a file: those of its text in layout. There are none
for a file that is too large, cannot be read, is in layout, or whose encoding was not found. -/
def rewritten? (formatter : Formatter) (workspace : Workspace) (file : String) :
    Option (List UInt8) :=
  (formatter.accepted? workspace file).bind fun bytes =>
    if formatter.formatted bytes = formatter.textOf bytes then none
    else (detect bytes).encode? (formatter.formatted bytes)

/-- A file is rewritten when it is accepted, formatting changes its text, and the new text can be
encoded. -/
theorem rewritten?_eq_some_iff {rewritten : List UInt8} :
    formatter.rewritten? workspace file = some rewritten ↔
      ∃ bytes, formatter.accepted? workspace file = some bytes ∧
        formatter.formatted bytes ≠ formatter.textOf bytes ∧
        (detect bytes).encode? (formatter.formatted bytes) = some rewritten := by
  rw [rewritten?, Option.bind_eq_some_iff]
  refine exists_congr fun bytes => and_congr_right fun _ => ?_
  split_ifs with same
  · simp [same]
  · simp [same]

/-- Bytes within the limit are accepted. -/
theorem accepted?_eq_some_iff {bytes : List UInt8} :
    formatter.accepted? workspace file = some bytes ↔
      isTooLarge workspace formatter.settings file = false ∧ workspace.read file = .ok bytes := by
  constructor
  · intro found
    have readable := read_of_accepted found
    refine ⟨?_, readable⟩
    rw [accepted?_eq readable] at found
    by_contra large
    rw [if_pos (by simpa using large)] at found
    contradiction
  · rintro ⟨small, readable⟩
    rw [accepted?_eq readable, small, if_neg Bool.false_ne_true]

/-- A file that is rewritten has other bytes afterwards: its own are written for its own text. -/
theorem stands_of_rewritten? {rewritten : List UInt8}
    (written : formatter.rewritten? workspace file = some rewritten) :
    ∃ names bytes, workspace.resolve file = .ok names ∧
      workspace.entry? names = some (.file bytes) ∧ rewritten ≠ bytes := by
  obtain ⟨bytes, found, differs, encoded⟩ := rewritten?_eq_some_iff.mp written
  obtain ⟨names, reached, there⟩ := Workspace.read_eq_ok_iff.mp (read_of_accepted found)
  refine ⟨names, bytes, reached, there, ?_⟩
  rintro rfl
  exact differs (decodeBytes_of_encode? _ encoded).symm

/-- A run that writes reports a file exactly when it rewrites it. -/
theorem isSome_change? (live : formatter.dryRun = false) :
    (formatter.change? workspace file).isSome =
      (formatter.rewritten? workspace file).isSome := by
  rw [change?, isWithheld, pending?, rewritten?]
  cases formatter.accepted? workspace file with
  | none => simp
  | some bytes =>
    by_cases same : formatter.formatted bytes = formatter.textOf bytes
    · simp [same]
    · have refused : (detect bytes).encode? (formatter.formatted bytes) = none ↔
          detect bytes = .fallback := encode?_format_eq_none_iff
      cases encoded : (detect bytes).encode? (formatter.formatted bytes) with
      | none => simp [live, same, refused.mp encoded, Detection.encode?]
      | some rewritten => simp [same, encoded, Detection.ne_fallback_of_encode? encoded]

/-- What a run that writes makes of a file depends on what stands at the end of its path. -/
theorem rewritten?_congr (same : after.find file = workspace.find file) :
    formatter.rewritten? after file = formatter.rewritten? workspace file := by
  unfold rewritten? accepted? isTooLarge Workspace.size? Workspace.read
  rw [same]

/-- A dry run does not touch the workspace. -/
theorem Effect.of_dry (effect : Effect formatter workspace file after changes)
    (dry : formatter.dryRun = true) : after = workspace := by
  cases effect with
  | skipped | settled | reported | refused => rfl
  | rewritten _ _ live =>
    rw [dry] at live
    contradiction

/-- Formatting a file changes no place but its own. -/
theorem Effect.entry?_away (effect : Effect formatter workspace file after changes)
    (away : workspace.resolve file ≠ .ok names) : after.entry? names = workspace.entry? names := by
  cases effect with
  | skipped | settled | reported | refused => rfl
  | rewritten found _ _ _ written =>
    obtain ⟨own, reached, -, rfl⟩ := Workspace.eq_put_of_write (read_of_accepted found) written
    refine Workspace.entry?_put_other ?_ _
    rintro rfl
    exact away reached

/-- What stands at the place of a file after it is formatted. -/
theorem Effect.entry?_at (effect : Effect formatter workspace file after changes)
    (live : formatter.dryRun = false) (reached : workspace.resolve file = .ok names) :
    after.entry? names =
      (formatter.rewritten? workspace file).elim (workspace.entry? names) (some ∘ Entry.file) := by
  cases effect with
  | skipped absent => rw [rewritten?, absent]; rfl
  | settled found same => rw [rewritten?, found, Option.bind_some, if_pos same]; rfl
  | reported _ _ dry =>
    rw [live] at dry
    contradiction
  | refused found differs _ lost =>
    rw [rewritten?, found, Option.bind_some, if_neg differs, lost]
    rfl
  | rewritten found differs _ encoded written =>
    obtain ⟨own, leads, there, rfl⟩ := Workspace.eq_put_of_write (read_of_accepted found) written
    obtain rfl := Except.ok.inj (leads.symm.trans reached)
    rw [Workspace.entry?_put_self (Workspace.ne_nil_of_file there),
      rewritten?_eq_some_iff.mpr ⟨_, found, differs, encoded⟩]
    rfl

/-- A dry run leaves the workspace as it is. -/
theorem formatEach_dry (dry : formatter.dryRun = true) :
    (formatter.formatEach workspace files).1 = workspace := by
  induction files generalizing workspace with
  | nil => rfl
  | cons file rest ih =>
    rw [formatEach, ih]
    exact (formatFile_effect formatter workspace file).of_dry dry

/-- All paths lead where they led before the run. -/
theorem resolve_formatEach (path : String) :
    (formatter.formatEach workspace files).1.resolve path = workspace.resolve path := by
  induction files generalizing workspace with
  | nil => rfl
  | cons file rest ih =>
    rw [formatEach, ih]
    exact (formatFile_effect formatter workspace file).frame.1 path

/-- A place that no file of a run leads to stays as it is. -/
theorem entry?_formatEach_away (away : ∀ file ∈ files, workspace.resolve file ≠ .ok names) :
    Workspace.entry? (formatter.formatEach workspace files).1 names = workspace.entry? names := by
  induction files generalizing workspace with
  | nil => rfl
  | cons file rest ih =>
    obtain ⟨here, later⟩ := List.forall_mem_cons.mp away
    have effect := formatFile_effect formatter workspace file
    rw [formatEach, ih, effect.entry?_away here]
    simpa only [effect.frame.1] using later

/-- What stands at the place of a file when the run is over, if no other file leads there. The turn
of the file is the only one that shows there, and the turns of other files do not change what will
be made of it. -/
theorem entry?_formatEach_at (live : formatter.dryRun = false)
    (apart : files.Pairwise workspace.Apart) (listed : file ∈ files)
    (reached : workspace.resolve file = .ok names) :
    Workspace.entry? (formatter.formatEach workspace files).1 names =
      (formatter.rewritten? workspace file).elim (workspace.entry? names) (some ∘ Entry.file) := by
  induction files generalizing workspace with
  | nil => contradiction
  | cons first rest ih =>
    obtain ⟨distinct, others⟩ := List.pairwise_cons.mp apart
    have effect := formatFile_effect formatter workspace first
    obtain ⟨leads, finds⟩ := effect.frame
    rw [formatEach]
    rcases List.mem_cons.mp listed with rfl | later
    · rw [entry?_formatEach_away, effect.entry?_at live reached]
      intro other inRest
      rw [leads]
      exact distinct other inRest names reached
    · have away : workspace.resolve first ≠ .ok names := by
        intro meets
        exact distinct file later names meets reached
      have still : (formatter.formatFile workspace first).1.resolve file = .ok names :=
        (leads file).trans reached
      rw [ih _ later still, rewritten?_congr (finds file (distinct file later)),
        effect.entry?_away away]
      unfold Workspace.Apart at others ⊢
      simpa only [leads] using others

/-- The bytes of a file when the run is over. A path that leads nowhere still does, and at the end
of any other all is as it was. -/
theorem read_formatEach (live : formatter.dryRun = false) (apart : files.Pairwise workspace.Apart)
    (listed : file ∈ files) :
    (formatter.formatEach workspace files).1.read file =
      (formatter.rewritten? workspace file).elim (workspace.read file) Except.ok := by
  cases written : formatter.rewritten? workspace file with
  | none =>
    rw [Workspace.read, Workspace.find, resolve_formatEach, Option.elim_none, Workspace.read,
      Workspace.find]
    cases leads : workspace.resolve file with
    | error cause => rfl
    | ok names =>
      have stands := entry?_formatEach_at live apart listed leads
      rw [written, Option.elim_none] at stands
      simp only [stands]
  | some rewritten =>
    obtain ⟨names, -, reached, -⟩ := stands_of_rewritten? written
    have stands := entry?_formatEach_at live apart listed reached
    rw [written] at stands
    exact Workspace.read_eq_ok_iff.mpr ⟨names, (resolve_formatEach file).trans reached, stands⟩

/-- A file has other bytes when the run is over exactly when it is rewritten. -/
theorem read_formatEach_ne_iff (live : formatter.dryRun = false)
    (apart : files.Pairwise workspace.Apart) (listed : file ∈ files) :
    (formatter.formatEach workspace files).1.read file ≠ workspace.read file ↔
      ∃ rewritten, formatter.rewritten? workspace file = some rewritten := by
  rw [read_formatEach live apart listed]
  cases written : formatter.rewritten? workspace file with
  | none => simp
  | some rewritten =>
    obtain ⟨names, bytes, reached, there, differs⟩ := stands_of_rewritten? written
    have readable := Workspace.read_eq_ok_iff.mpr ⟨names, reached, there⟩
    simp [readable, differs]

/-- Something else stands at a place when the run is over exactly when a file that is rewritten
leads there. -/
theorem entry?_formatEach_ne_iff (live : formatter.dryRun = false)
    (apart : files.Pairwise workspace.Apart) :
    Workspace.entry? (formatter.formatEach workspace files).1 names ≠ workspace.entry? names ↔
      ∃ file ∈ files, (∃ rewritten, formatter.rewritten? workspace file = some rewritten) ∧
        workspace.resolve file = .ok names := by
  constructor
  · intro moved
    have visited : ∃ file ∈ files, workspace.resolve file = .ok names := by
      by_contra away
      push Not at away
      exact moved (entry?_formatEach_away away)
    obtain ⟨file, listed, reached⟩ := visited
    refine ⟨file, listed, ?_, reached⟩
    rw [entry?_formatEach_at live apart listed reached] at moved
    cases written : formatter.rewritten? workspace file with
    | none => simp [written] at moved
    | some rewritten => exact ⟨rewritten, rfl⟩
  · rintro ⟨file, listed, ⟨rewritten, written⟩, reached⟩
    obtain ⟨own, bytes, leads, there, differs⟩ := stands_of_rewritten? written
    obtain rfl := Except.ok.inj (leads.symm.trans reached)
    rw [entry?_formatEach_at live apart listed reached, written, there]
    simpa using differs

/-- A reported change names its file. -/
theorem file_of_change? {change : FormattingChange}
    (reported : formatter.change? workspace file = some change) : change.file = file := by
  unfold change? at reported
  split_ifs at reported
  exact file_of_pending? reported

/-- The files of the reported changes are the files that have one. -/
theorem map_file_filterMap_change? :
    (files.filterMap (formatter.change? workspace)).map (·.file) =
      files.filter fun file => (formatter.change? workspace file).isSome := by
  induction files with
  | nil => rfl
  | cons file rest ih =>
    cases reported : formatter.change? workspace file with
    | none => simp [reported, ih]
    | some change => simp [reported, ih, file_of_change? reported]

/-- What a run did to a workspace, in terms of the changes that it reports. -/
structure Frame (formatter : Formatter) (workspace after : Workspace) (files : List String)
    (changes : List FormattingChange) : Prop where
  /-- No file is reported twice. -/
  once : (changes.map (·.file)).Nodup
  /-- A file of the run has other bytes than before exactly when it is reported. -/
  selected : ∀ file ∈ files,
    after.read file ≠ workspace.read file ↔ file ∈ changes.map (·.file)
  /-- The reported files are those of the run that are within the limit and can be read, are not in
  layout, and can be written back. -/
  reported : ∀ file, file ∈ changes.map (·.file) ↔
    file ∈ files ∧ isTooLarge workspace formatter.settings file = false ∧
      ∃ bytes rewritten, workspace.read file = .ok bytes ∧
        formatter.formatted bytes ≠ formatter.textOf bytes ∧
        (detect bytes).encode? (formatter.formatted bytes) = some rewritten ∧
        after.read file = .ok rewritten
  /-- Something else than before stands exactly where a reported file leads. -/
  places : ∀ names, after.entry? names ≠ workspace.entry? names ↔
    ∃ file ∈ changes.map (·.file), workspace.resolve file = .ok names
  /-- All paths lead where they led. -/
  leads : ∀ path, after.resolve path = workspace.resolve path

section Reported

variable {arrival : List Outcome → List Outcome} (apart : files.Pairwise workspace.Apart)
  (delivered : Channel.Delivers (formatter.formatEach workspace files).2
    (arrival (formatter.formatEach workspace files).2))
include apart delivered

/-- A run reports the changes of its files, each once and in some order. -/
theorem changes_formatFiles_perm :
    (formatter.formatFiles workspace arrival files).2.result.changes.Perm
      (files.filterMap (formatter.change? workspace)) := by
  obtain ⟨order, same, collects⟩ := exists_collects_run
    ⟨formatter.options.workers formatter.settings files.length, "format", arrival⟩ _ delivered
  rw [← changes_formatEach apart, formatFiles]
  exact collects.changes ▸ same.flatMap_right Outcome.changes

variable (live : formatter.dryRun = false)
include live

/-- A run that writes reports a file of its own exactly when it rewrites it. -/
theorem reported_iff :
    file ∈ (formatter.formatFiles workspace arrival files).2.result.changes.map (·.file) ↔
      file ∈ files ∧ ∃ rewritten, formatter.rewritten? workspace file = some rewritten := by
  have same := (changes_formatFiles_perm apart delivered).map FormattingChange.file
  rw [same.mem_iff, map_file_filterMap_change?, List.mem_filter, isSome_change? live,
    Option.isSome_iff_exists]

/-- No file is reported twice: what is reported leads somewhere, and no two files lead there. -/
theorem nodup_reported :
    ((formatter.formatFiles workspace arrival files).2.result.changes.map (·.file)).Nodup := by
  have same := (changes_formatFiles_perm apart delivered).map FormattingChange.file
  rw [same.nodup_iff, map_file_filterMap_change?]
  refine (apart.filter _).imp_of_mem ?_
  rintro file other inside - distinct rfl
  rw [List.mem_filter, isSome_change? live, Option.isSome_iff_exists] at inside
  obtain ⟨rewritten, written⟩ := inside.2
  obtain ⟨names, -, reached, -⟩ := stands_of_rewritten? written
  exact distinct names reached reached

/-- A run that writes changes the files that it reports and nothing else. -/
theorem frame_formatFiles :
    Frame formatter workspace (formatter.formatFiles workspace arrival files).1 files
      (formatter.formatFiles workspace arrival files).2.result.changes where
  once := nodup_reported apart delivered live
  selected file listed := by
    rw [reported_iff apart delivered live, and_iff_right listed]
    exact read_formatEach_ne_iff live apart listed
  reported file := by
    rw [reported_iff apart delivered live]
    refine and_congr_right fun listed => ?_
    have reads := read_formatEach live apart listed
    constructor
    · rintro ⟨rewritten, written⟩
      rw [written] at reads
      obtain ⟨bytes, found, differs, encoded⟩ := rewritten?_eq_some_iff.mp written
      obtain ⟨small, readable⟩ := accepted?_eq_some_iff.mp found
      exact ⟨small, bytes, rewritten, readable, differs, encoded, reads⟩
    · rintro ⟨small, bytes, rewritten, readable, differs, encoded, -⟩
      have found := accepted?_eq_some_iff.mpr ⟨small, readable⟩
      exact ⟨rewritten, rewritten?_eq_some_iff.mpr ⟨bytes, found, differs, encoded⟩⟩
  places names := by
    simp only [reported_iff apart delivered live, and_assoc]
    exact entry?_formatEach_ne_iff live apart
  leads := resolve_formatEach

end Reported

/-- A dry run leaves the workspace as it is, and a run that writes changes the files that it
reports, each once, and nothing else. -/
theorem formatFiles_frame (arrival : List Outcome → List Outcome)
    (apart : files.Pairwise workspace.Apart)
    (delivered : Channel.Delivers
      (formatEach { formatter with dryRun := false } workspace files).2
      (arrival (formatEach { formatter with dryRun := false } workspace files).2)) :
    (formatFiles { formatter with dryRun := true } workspace arrival files).1 = workspace ∧
      Frame { formatter with dryRun := false } workspace
        (formatFiles { formatter with dryRun := false } workspace arrival files).1 files
        (formatFiles { formatter with dryRun := false } workspace arrival files).2.result.changes :=
  ⟨formatEach_dry rfl, frame_formatFiles apart delivered rfl⟩

/-- A workspace with a page that is not in layout and another whose encoding is not found. -/
def pages : Workspace :=
  ⟨[(["page.cfm"], .file [0x61, 0x20, 0x0A]),
    (["odd.cfm"], .file [0x78, 0x01, 0x02, 0x81, 0x20, 0x20, 0x0A])], []⟩

/-- Of two pages that are not in layout, the one that is reported has other bytes. -/
theorem formatFiles_frame_pages :
    (formatFiles { plain with dryRun := false } pages List.reverse
        ["page.cfm", "odd.cfm"]).2.result.changes.map (·.file) = ["page.cfm"] ∧
      (formatFiles { plain with dryRun := false } pages List.reverse
        ["page.cfm", "odd.cfm"]).1.read "page.cfm" ≠ pages.read "page.cfm" ∧
      (formatFiles { plain with dryRun := false } pages List.reverse
        ["page.cfm", "odd.cfm"]).1.read "odd.cfm" = pages.read "odd.cfm" := by
  have first : pages.resolve "page.cfm" = .ok ["page.cfm"] := by decide +kernel
  have second : pages.resolve "odd.cfm" = .ok ["odd.cfm"] := by decide +kernel
  have apart : ["page.cfm", "odd.cfm"].Pairwise pages.Apart := by
    refine List.pairwise_pair.mpr fun names reached meets => ?_
    rw [first] at reached
    rw [second, ← reached] at meets
    exact absurd meets (by decide)
  have frame := (@formatFiles_frame plain pages _ List.reverse apart
    (Channel.delivers_iff_perm.mpr (List.reverse_perm _))).2
  have reported : (formatFiles { plain with dryRun := false } pages List.reverse
      ["page.cfm", "odd.cfm"]).2.result.changes.map (·.file) = ["page.cfm"] := by
    decide +kernel
  refine ⟨reported, (frame.selected "page.cfm" ?_).mpr ?_, not_not.mp ?_⟩
  · decide
  · rw [reported]
    decide
  · rw [← ne_eq, frame.selected "odd.cfm" (by decide), reported]
    decide

end CfmlTidy.Run.Formatter
