import Mathlib
import CfmlTidy.Proofs.Path.Resolution

/-!
# Relative paths

The relative path between two absolute paths goes up out of the steps that only the base has and
down those that only the path has. When the base has no two dots, every step that is left is a
name, so two dots leave exactly that one, and following the relative path from the base arrives
where the path leads.
-/

namespace CfmlTidy.Path

/-- The longest start that two lists of steps share. -/
structure SharedStart (shared path base : List Component) : Prop where
  /-- The path starts with it. -/
  onPath : shared <+: path
  /-- The base starts with it. -/
  onBase : shared <+: base
  /-- Everything else that both start with is a start of it. -/
  longest : ∀ other, other <+: path → other <+: base → other <+: shared

/-- The names after one more step. -/
def moved (names : List String) : Component → List String
  | .up => names.dropLast
  | .name text => names ++ [text]
  | _ => names

variable {path base : String} {names others : List String} {components : List Component}

section Shared

/-- What two paths start with in common is their shared start. -/
theorem sharedStart_commonStart (path base : List Component) :
    SharedStart (commonStart path base) path base := by
  obtain ⟨onPath, onBase⟩ := commonStart_prefix path base
  refine ⟨onPath, onBase, ?_⟩
  clear onPath onBase
  fun_induction commonStart path base with
  | case1 first path base ih =>
    intro other onPath onBase
    cases other with
    | nil => exact List.nil_prefix
    | cons step rest =>
      rw [List.cons_prefix_cons] at onPath onBase ⊢
      exact ⟨onPath.1, ih rest onPath.2 onBase.2⟩
  | case2 left lefts right rights differ =>
    intro other onPath onBase
    cases other with
    | nil => exact List.nil_prefix
    | cons step rest =>
      rw [List.cons_prefix_cons] at onPath onBase
      exact absurd (onPath.1.symm.trans onBase.1) differ
  | case3 path base ends =>
    intro other onPath onBase
    cases other with
    | nil => exact List.nil_prefix
    | cons step rest =>
      obtain ⟨left, rfl⟩ := onPath
      obtain ⟨right, rfl⟩ := onBase
      exact (ends _ _ _ _ rfl rfl).elim

/-- The steps from a base to a path are two dots for each step that is not shared, and then the
others of the path. -/
theorem relativeSteps_eq (path base : List Component) :
    relativeSteps path base =
      List.replicate (base.length - (commonStart path base).length) .up ++
        path.drop (commonStart path base).length := by
  rw [relativeSteps, List.map_const', List.length_drop]

/-- Two dots are needed exactly when the path does not start with the base. -/
theorem SharedStart.up_not_mem_iff {shared path base : List Component}
    (start : SharedStart shared path base) (plain : .up ∉ path) :
    .up ∉ List.replicate (base.length - shared.length) .up ++ path.drop shared.length ↔
      base <+: path := by
  have below : .up ∉ path.drop shared.length := fun listed =>
    plain (List.mem_of_mem_drop listed)
  rw [List.mem_append, List.mem_replicate, not_or]
  constructor
  · rintro ⟨level, -⟩
    have within : base.length ≤ shared.length := by simpa [Nat.sub_eq_zero_iff_le] using level
    have whole : shared = base := start.onBase.eq_of_length_le within
    exact whole ▸ start.onPath
  · intro above
    have within := (start.longest base above List.prefix_rfl).length_le
    exact ⟨by omega, below⟩

end Shared

section Follow

/-- Segments lead where their steps lead. -/
theorem foldl_advance (segments : List (List Char)) (names : List String) :
    segments.foldl Workspace.advance names = (trailOf segments).foldl moved names := by
  induction segments generalizing names with
  | nil => rfl
  | cons segment rest ih =>
    rw [List.foldl_cons, ih]
    by_cases idle : (segment.isEmpty || segment == ['.']) = true
    · rw [trailOf_cons_idle idle, Workspace.advance, if_pos idle]
    · rw [trailOf_cons idle, List.foldl_cons, Workspace.advance, if_neg idle, ofSegment]
      by_cases dots : segment = ['.', '.']
      · rw [if_pos dots, if_pos (by simpa using dots)]
        rfl
      · rw [if_neg dots, if_neg (by simpa using dots)]
        rfl

/-- Steps that are names are added. -/
theorem foldl_moved_names (names others : List String) :
    (others.map .name).foldl moved names = names ++ others := by
  induction others generalizing names with
  | nil => simp
  | cons name rest ih =>
    rw [List.map_cons, List.foldl_cons, ih, moved, List.append_assoc]
    rfl

/-- As many two dots as names leave these names. -/
theorem foldl_moved_ups (names others : List String) :
    (List.replicate others.length .up).foldl moved (names ++ others) = names := by
  induction others using List.reverseRecOn with
  | nil => simp
  | append_singleton rest last ih =>
    rw [List.length_append, List.length_singleton, List.replicate_succ, List.foldl_cons, moved,
      ← List.append_assoc, List.dropLast_concat]
    exact ih

/-- The relative steps lead from the names of a base to where the path leads. What both share are
names, and so is what the base has beyond it. -/
theorem foldl_moved_relativeSteps (path : List Component) (names : List String) :
    (relativeSteps path (names.map .name)).foldl moved names = path.foldl moved [] := by
  obtain ⟨⟨lower, onPath⟩, ⟨upper, onBase⟩⟩ := commonStart_prefix path (names.map .name)
  rw [relativeSteps_eq]
  generalize commonStart path (names.map .name) = shared at onPath onBase
  obtain ⟨front, left, rfl, rfl, rfl⟩ := List.map_eq_append_iff.mp onBase.symm
  subst onPath
  have above : ((front ++ left).map Component.name).length - (front.map Component.name).length =
      left.length := by simp
  rw [above, List.drop_left, List.foldl_append, foldl_moved_ups, List.foldl_append,
    foldl_moved_names, List.nil_append]

end Follow

section Written

/-- The first segment of an absolute path is empty. -/
theorem head?_splitOn_of_isAbsolute (rooted : isAbsolute path = true) :
    (Text.splitOn '/' path.toList).head? = some [] := by
  rw [isAbsolute, beq_iff_eq] at rooted
  obtain ⟨rest, whole⟩ := List.head?_eq_some_iff.mp rooted
  rw [whole]
  rfl

/-- Written steps have the steps they were written from. -/
theorem trail_segmentsText (proper : ∀ component ∈ components, IsStep component) :
    trail (segmentsText (components.map Component.text)) = components := by
  rcases eq_or_ne components [] with rfl | filled
  · rfl
  · rw [trail, splitOn_segmentsText filled proper, trailOf_map_text proper]

/-- Written steps do not start with a slash. -/
theorem isAbsolute_segmentsText (proper : ∀ component ∈ components, IsStep component) :
    isAbsolute (segmentsText (components.map Component.text)) = false := by
  rw [Bool.eq_false_iff]
  intro rooted
  have empty := head?_splitOn_of_isAbsolute rooted
  cases components with
  | nil => simp [isAbsolute, segmentsText, Text.joinStrings] at rooted
  | cons first rest =>
    rw [splitOn_segmentsText (List.cons_ne_nil first rest) proper] at empty
    have blank : first.text.toList = [] := Option.some.inj empty
    cases proper first List.mem_cons_self with
    | up => simp [Component.text] at blank
    | name named => exact named.filled blank

/-- A path that is not absolute has the steps of its segments. -/
theorem steps_of_not_isAbsolute (loose : isAbsolute path = false) : steps path = trail path := by
  have rooted : ¬ isAbsolute path = true := Bool.eq_false_iff.mp loose
  rw [steps, components, if_neg rooted]
  split_ifs with dotted
  · rw [List.filter_cons_of_neg (by decide)]
    exact filter_trailOf _
  · exact filter_trailOf _

/-- Written steps are read back. -/
theorem steps_segmentsText (proper : ∀ component ∈ components, IsStep component) :
    steps (segmentsText (components.map Component.text)) = components := by
  rw [steps_of_not_isAbsolute (isAbsolute_segmentsText proper), trail_segmentsText proper]

end Written

/-- The names of an absolute path without two dots are all its steps below the root. -/
theorem steps_eq_resolved (rooted : isAbsolute path = true) (plain : .up ∉ steps path) :
    steps path = .root :: (resolved path).map .name := by
  rw [steps_of_isAbsolute rooted] at plain ⊢
  rw [map_resolved fun listed => plain (List.mem_cons_of_mem _ listed)]

/-- Between absolute paths there is a relative path. Out of a base without two dots it leads where
the path leads. Its steps are two dots for each step of the base after the longest shared start,
and then the steps of the path after that start. When the path has no two dots either, these are
all the two dots there are, and there are none exactly when the path starts with the base. -/
theorem relativeTo?_leads (above : isAbsolute base = true) (rooted : isAbsolute path = true)
    (plain : .up ∉ steps base) :
    ∃ relative shared, relativeTo? path base = some relative ∧
      steps base = .root :: (resolved base).map .name ∧
      (Text.splitOn '/' relative.toList).foldl Workspace.advance (resolved base) =
        resolved path ∧
      SharedStart shared (steps path) (steps base) ∧
      steps relative = List.replicate ((steps base).length - shared.length) .up ++
        (steps path).drop shared.length ∧
      (.up ∉ steps path →
        steps path = .root :: (resolved path).map .name ∧
        .up ∉ (steps path).drop shared.length ∧
        (.up ∉ steps relative ↔ steps base <+: steps path)) := by
  have names := steps_eq_resolved above plain
  have proper : ∀ component ∈ relativeSteps (trail path) (trail base), IsStep component :=
    fun component listed => isStep_of_mem_relativeSteps listed
  have start := sharedStart_commonStart (steps path) (steps base)
  have turns : relativeSteps (trail path) (trail base) =
      List.replicate ((steps base).length - (commonStart (steps path) (steps base)).length) .up ++
        (steps path).drop (commonStart (steps path) (steps base)).length := by
    rw [← relativeSteps_eq, steps_of_isAbsolute rooted, steps_of_isAbsolute above,
      relativeSteps_cons]
  have read := steps_segmentsText proper
  refine ⟨_, _, relativeTo?_of_isAbsolute above rooted, names, ?_, start, read.trans turns, ?_⟩
  · have below : trail base = (resolved base).map .name := by
      rw [steps_of_isAbsolute above] at names
      exact List.tail_eq_of_cons_eq names
    calc
      _ = (trail (segmentsText ((relativeSteps (trail path) (trail base)).map
            Component.text))).foldl moved (resolved base) := foldl_advance _ _
      _ = (relativeSteps (trail path) ((resolved base).map .name)).foldl moved (resolved base) := by
        rw [trail_segmentsText proper, below]
      _ = (trail path).foldl moved [] := foldl_moved_relativeSteps _ _
      _ = resolved path := (foldl_advance _ _).symm
  · intro level
    refine ⟨steps_eq_resolved rooted level, fun listed => level (List.mem_of_mem_drop listed), ?_⟩
    rw [read, turns]
    exact start.up_not_mem_iff level

/-- A sibling whose name starts with the name of the base, written with dots and a way back. -/
theorem relativeTo?_leads_sibling :
    isAbsolute "/work/./app/" = true ∧ isAbsolute "/work/lib/../apple//a.cfm" = true ∧
      .up ∉ steps "/work/./app/" ∧
      relativeTo? "/work/lib/../apple//a.cfm" "/work/./app/" = some "../lib/../apple/a.cfm" ∧
      resolved "/work/./app/" = ["work", "app"] ∧
      (Text.splitOn '/' "../lib/../apple/a.cfm".toList).foldl Workspace.advance ["work", "app"] =
        ["work", "apple", "a.cfm"] := by
  have above : isAbsolute "/work/./app/" = true := by decide +kernel
  have rooted : isAbsolute "/work/lib/../apple//a.cfm" = true := by decide +kernel
  have plain : .up ∉ steps "/work/./app/" := by decide +kernel
  have written : relativeTo? "/work/lib/../apple//a.cfm" "/work/./app/" =
      some "../lib/../apple/a.cfm" := by decide +kernel
  have names : resolved "/work/./app/" = ["work", "app"] := by decide +kernel
  have place : resolved "/work/lib/../apple//a.cfm" = ["work", "apple", "a.cfm"] := by
    decide +kernel
  obtain ⟨relative, shared, given, -, leads, -⟩ := relativeTo?_leads above rooted plain
  obtain rfl : "../lib/../apple/a.cfm" = relative := Option.some.inj (written.symm.trans given)
  rw [names, place] at leads
  exact ⟨above, rooted, plain, written, names, leads⟩

end CfmlTidy.Path
