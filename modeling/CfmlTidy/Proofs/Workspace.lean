import Mathlib
import CfmlTidy.Workspace
import CfmlTidy.Proofs.Text.Lines

/-!
# Reading and writing files

A path that can be read can be written: it does not end in a slash, and it leads to a file. Writing
it changes the bytes of that file and nothing else. In particular every path leads where it led
before, since a file stays a file, and so writes to different files do not meet.
-/

namespace CfmlTidy.Workspace

variable {workspace after : Workspace} {names : List String} {path other : String}

/-- Two paths that do not lead to the same place. -/
def Apart (workspace : Workspace) (path other : String) : Prop :=
  ∀ names, workspace.resolve path = .ok names → workspace.resolve other ≠ .ok names

/-- An entry is found where it was put. -/
theorem lookup_putEntry_self (names : List String) (entry : Entry)
    (entries : List (List String × Entry)) :
    (putEntry names entry entries).lookup names = some entry := by
  induction entries with
  | nil => simp [putEntry]
  | cons first rest ih =>
    rw [putEntry]
    split_ifs with same
    · simp
    · have differs : (names == first.1) = false := by simpa using Ne.symm same
      rw [List.lookup_cons, differs, ih]

/-- Entries elsewhere stay. -/
theorem lookup_putEntry_other {others : List String} (apart : others ≠ names) (entry : Entry)
    (entries : List (List String × Entry)) :
    (putEntry names entry entries).lookup others = entries.lookup others := by
  induction entries with
  | nil =>
    have differs : (others == names) = false := by simpa using apart
    simp [putEntry, List.lookup_cons, differs]
  | cons first rest ih =>
    rw [putEntry]
    split_ifs with same
    · have differs : (others == names) = false := by simpa using apart
      rw [List.lookup_cons, List.lookup_cons, same, differs]
    · rw [List.lookup_cons, List.lookup_cons, ih]

/-- An entry stands where it was put; the root stays a directory. -/
theorem entry?_put_self (filled : names ≠ []) (entry : Entry) :
    entry? (workspace.put names entry) names = some entry := by
  unfold entry?
  rw [if_neg (by simpa using filled)]
  exact lookup_putEntry_self names entry workspace.entries

/-- What stands elsewhere stays. -/
theorem entry?_put_other {others : List String} (apart : others ≠ names) (entry : Entry) :
    entry? (workspace.put names entry) others = workspace.entry? others := by
  unfold entry?
  split_ifs with empty
  · rfl
  · exact lookup_putEntry_other apart entry workspace.entries

/-- A file is not the root. -/
theorem ne_nil_of_file {bytes : List UInt8} (there : workspace.entry? names = some (.file bytes)) :
    names ≠ [] := by
  rintro rfl
  unfold entry? at there
  simp at there

/-- Segments lead to the same place after a file is replaced by a file. -/
theorem follow_put {old : List UInt8} (there : workspace.entry? names = some (.file old))
    (bytes : List UInt8) (start : List String) (segments : List (List Char)) :
    (workspace.put names (.file bytes)).follow start segments =
      workspace.follow start segments := by
  induction segments generalizing start with
  | nil => rfl
  | cons segment rest ih =>
    rw [follow, follow]
    by_cases same : start = names
    · rw [same, entry?_put_self (ne_nil_of_file there), there]
    · rw [entry?_put_other same]
      cases workspace.entry? start with
      | none => rfl
      | some entry =>
        cases entry with
        | file _ => rfl
        | directory => exact ih (advance start segment)

/-- A path leads to the same place after a file is replaced by a file. -/
theorem resolve_put {old : List UInt8} (there : workspace.entry? names = some (.file old))
    (bytes : List UInt8) (path : String) :
    (workspace.put names (.file bytes)).resolve path = workspace.resolve path := by
  rw [resolve, resolve]
  split_ifs
  · rfl
  · exact follow_put there bytes _ _
  · exact follow_put there bytes _ _

/-- What can be read is a file at the end of a path. -/
theorem read_eq_ok_iff {bytes : List UInt8} :
    workspace.read path = .ok bytes ↔
      ∃ names, workspace.resolve path = .ok names ∧
        workspace.entry? names = some (.file bytes) := by
  rw [read, find]
  cases workspace.resolve path with
  | error cause => simp
  | ok names =>
    simp only [Except.ok.injEq, exists_eq_left']
    cases workspace.entry? names with
    | none => simp
    | some entry => cases entry <;> simp

/-- A segment leads on from a directory and from nothing else. -/
theorem follow_cons_eq_ok {start : List String} {segment : List Char}
    {segments : List (List Char)} :
    workspace.follow start (segment :: segments) = .ok names ↔
      workspace.entry? start = some .directory ∧
        workspace.follow (advance start segment) segments = .ok names := by
  rw [follow]
  cases workspace.entry? start with
  | none => simp
  | some entry => cases entry <;> simp

/-- A path whose last segment is empty leads to a directory. -/
theorem directory_of_follow {start : List String} {segments : List (List Char)}
    (reached : workspace.follow start (segments ++ [[]]) = .ok names) :
    workspace.entry? names = some .directory := by
  induction segments generalizing start with
  | nil =>
    obtain ⟨there, stays⟩ := follow_cons_eq_ok.mp reached
    obtain rfl : start = names := by simpa [follow, advance] using stays
    exact there
  | cons segment rest ih =>
    obtain ⟨-, further⟩ := follow_cons_eq_ok.mp reached
    exact ih further

/-- A path that ends in a slash leads to no file. -/
theorem not_endsInSlash_of_read {bytes : List UInt8} (readable : workspace.read path = .ok bytes) :
    endsInSlash path = false := by
  obtain ⟨names, reached, there⟩ := read_eq_ok_iff.mp readable
  rw [← Bool.not_eq_true]
  intro slash
  obtain ⟨front, whole⟩ := List.getLast?_eq_some_iff.mp (beq_iff_eq.mp slash)
  rw [resolve] at reached
  split_ifs at reached <;>
  · rw [whole, Text.splitOn, Text.splitBy_concat (by decide)] at reached
    rw [directory_of_follow reached] at there
    simp at there

/-- A path that does not end in a slash has none to lose. -/
theorem withoutSlashes_of_not_endsInSlash (plain : endsInSlash path = false) :
    withoutSlashes path = path := by
  have kept : Text.dropEndWhile (· == '/') path.toList = path.toList := by
    rw [Text.dropEndWhile_eq, List.rdropWhile_eq_self_iff]
    intro filled slash
    rw [endsInSlash, List.getLast?_eq_getLast_of_ne_nil filled] at plain
    simp_all
  rw [withoutSlashes]
  simp only [kept, String.ofList_toList, ite_self]

/-- Writing a readable file replaces its entry. -/
theorem write_eq_put {bytes old : List UInt8} (readable : workspace.read path = .ok old)
    (reached : workspace.resolve path = .ok names)
    (there : workspace.entry? names = some (.file old)) :
    workspace.write path bytes = .ok (workspace.put names (.file bytes)) := by
  have plain := not_endsInSlash_of_read readable
  rw [write, withoutSlashes_of_not_endsInSlash plain, reached]
  simp only [plain, there, Bool.false_eq_true, if_false]

/-- What a readable file is written to has the new entry in place of the old. -/
theorem eq_put_of_write {bytes old : List UInt8} (readable : workspace.read path = .ok old)
    (written : workspace.write path bytes = .ok after) :
    ∃ names, workspace.resolve path = .ok names ∧ workspace.entry? names = some (.file old) ∧
      after = workspace.put names (.file bytes) := by
  obtain ⟨names, reached, there⟩ := read_eq_ok_iff.mp readable
  rw [write_eq_put readable reached there] at written
  exact ⟨names, reached, there, (Except.ok.inj written).symm⟩

/-- A readable file can be written. It then has the bytes that were written, all paths lead where
they led before, and what stands at the end of other paths is unchanged. -/
theorem write_of_read {old : List UInt8} (readable : workspace.read path = .ok old)
    (bytes : List UInt8) :
    ∃ after, workspace.write path bytes = .ok after ∧ after.read path = .ok bytes ∧
      (∀ other, after.resolve other = workspace.resolve other) ∧
      ∀ other, workspace.Apart path other → after.find other = workspace.find other := by
  obtain ⟨names, reached, there⟩ := read_eq_ok_iff.mp readable
  refine ⟨_, write_eq_put readable reached there, ?_, resolve_put there bytes, ?_⟩
  · rw [read_eq_ok_iff]
    exact ⟨names, (resolve_put there bytes path).trans reached,
      entry?_put_self (ne_nil_of_file there) _⟩
  · intro other apart
    rw [find, find, resolve_put there]
    cases leads : workspace.resolve other with
    | error cause => rfl
    | ok others =>
      have differs : others ≠ names := by
        rintro rfl
        exact apart others reached leads
      simp only [entry?_put_other differs]

/-- Whether a path can be written does not depend on the bytes. -/
theorem write_refused_or_done (workspace : Workspace) (path : String) :
    (∃ cause, ∀ bytes, workspace.write path bytes = .error cause) ∨
      ∀ bytes, ∃ after, workspace.write path bytes = .ok after := by
  unfold write
  cases workspace.resolve (withoutSlashes path) with
  | error cause => exact Or.inl ⟨cause, fun _ => rfl⟩
  | ok names =>
    by_cases slash : endsInSlash path = true
    · exact Or.inl ⟨.isDirectory, fun _ => if_pos slash⟩
    · simp only [if_neg slash]
      rcases workspace.entry? names with _ | ⟨old⟩ | _
      · exact Or.inr fun bytes => ⟨_, rfl⟩
      · exact Or.inr fun bytes => ⟨_, rfl⟩
      · exact Or.inl ⟨.isDirectory, fun _ => rfl⟩

end CfmlTidy.Workspace
