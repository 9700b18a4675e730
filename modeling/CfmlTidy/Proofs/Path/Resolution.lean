import Mathlib
import CfmlTidy.Proofs.Text.Lines
import CfmlTidy.Workspace

/-!
# Resolved paths

An absolute path leads along names when its dots are resolved by its text alone. Patterns are
matched against the steps of the path as it is written, and two dots in it are steps like any other.
So the text that patterns see is free of two dots exactly when the path starts with the steps of the
base and goes straight down from there.
-/

namespace CfmlTidy.Path

/-- The names that an absolute path leads along, with its dots resolved. -/
def resolved (path : String) : List String :=
  (Text.splitOn '/' path.toList).foldl Workspace.advance []

/-- The path without dots that leads along the same names. -/
def normalized (path : String) : String := Workspace.pathOf (resolved path)

/-- A path that goes straight down from a base: it starts with the steps of the base, and no two
dots follow. -/
def Straight (path base : String) : Prop :=
  ∃ rest, steps path = steps base ++ rest ∧ .up ∉ rest

/-- Whether two dots stand between slashes, or at an end of a text. -/
def Climbs (text : String) : Prop := ['.', '.'] ∈ Text.splitOn '/' text.toList

/-- The steps of segments. -/
def trailOf (segments : List (List Char)) : List Component :=
  (segments.filter fun segment => !segment.isEmpty && segment != ['.']).map ofSegment

/-- The steps of an absolute path after its root. -/
def trail (path : String) : List Component := trailOf (Text.splitOn '/' path.toList)

/-- A name between slashes. -/
structure IsName (text : String) : Prop where
  /-- It is not empty. -/
  filled : text.toList ≠ []
  /-- It is not one dot. -/
  ne_dot : text.toList ≠ ['.']
  /-- It is not two dots. -/
  ne_dots : text.toList ≠ ['.', '.']
  /-- It has no slash. -/
  clean : ∀ c ∈ text.toList, (c == '/') = false

/-- A step after the root: two dots or a name. -/
inductive IsStep : Component → Prop where
  /-- Two dots. -/
  | up : IsStep .up
  /-- A name. -/
  | name {text : String} (named : IsName text) : IsStep (.name text)

variable {path base : String} {names : List String} {segment : List Char}
  {segments : List (List Char)}

/-- A segment that is empty or a dot leaves no trace. -/
theorem trailOf_cons_idle (idle : (segment.isEmpty || segment == ['.']) = true) :
    trailOf (segment :: segments) = trailOf segments := by
  have skipped : (!segment.isEmpty && segment != ['.']) = false := by
    rw [bne, ← Bool.not_or, idle, Bool.not_true]
  rw [trailOf, List.filter_cons, skipped]
  rfl

/-- Any other segment is a component of the trail. -/
theorem trailOf_cons (counts : ¬ (segment.isEmpty || segment == ['.']) = true) :
    trailOf (segment :: segments) = ofSegment segment :: trailOf segments := by
  have kept : (!segment.isEmpty && segment != ['.']) = true := by
    rw [bne, ← Bool.not_or, Bool.eq_false_iff.mpr counts, Bool.not_false]
  rw [trailOf, List.filter_cons, kept]
  rfl

/-- No single dot is left among the steps of segments. -/
theorem filter_trailOf (segments : List (List Char)) :
    (trailOf segments).filter (· != .current) = trailOf segments := by
  rw [List.filter_eq_self]
  intro component listed
  obtain ⟨segment, -, rfl⟩ := List.mem_map.mp listed
  unfold ofSegment
  split_ifs <;> rfl

/-- An absolute path is a root and the steps after it. -/
theorem steps_of_isAbsolute (rooted : isAbsolute path = true) :
    steps path = .root :: trail path := by
  have whole : components path = .root :: trail path := if_pos rooted
  rw [steps, whole, List.filter_cons_of_pos (by rfl), trail, filter_trailOf]

/-- The components of a trail are steps. -/
theorem isStep_of_mem_trail {component : Component} (listed : component ∈ trail path) :
    IsStep component := by
  obtain ⟨segment, among, rfl⟩ := List.mem_map.mp listed
  obtain ⟨piece, counts⟩ := List.mem_filter.mp among
  rw [Bool.and_eq_true, Bool.not_eq_true', List.isEmpty_eq_false_iff, bne_iff_ne] at counts
  unfold ofSegment
  split_ifs with dots
  · exact .up
  · have clean := fun c inside => (Text.of_mem_splitBy piece c inside).2
    rw [← String.toList_ofList (l := segment)] at counts dots clean
    exact .name ⟨counts.1, counts.2, dots, clean⟩

/-- One more segment keeps names names. -/
theorem isName_advance (named : ∀ name ∈ names, IsName name)
    (clean : ∀ c ∈ segment, (c == '/') = false) :
    ∀ name ∈ Workspace.advance names segment, IsName name := by
  unfold Workspace.advance
  split_ifs with idle dots
  · exact named
  · intro name listed
    exact named name (List.dropLast_subset names listed)
  · rw [Bool.or_eq_true, not_or, List.isEmpty_iff, beq_iff_eq] at idle
    rw [beq_iff_eq] at dots
    rw [← String.toList_ofList (l := segment)] at idle dots clean
    intro name listed
    rcases List.mem_append.mp listed with earlier | last
    · exact named name earlier
    · rw [List.mem_singleton.mp last]
      exact ⟨idle.1, idle.2, dots, clean⟩

/-- Segments lead from names to names. -/
theorem isName_foldl_advance (clean : ∀ segment ∈ segments, ∀ c ∈ segment, (c == '/') = false)
    (named : ∀ name ∈ names, IsName name) :
    ∀ name ∈ segments.foldl Workspace.advance names, IsName name := by
  induction segments generalizing names with
  | nil => exact named
  | cons segment rest ih =>
    exact ih (fun other listed => clean other (List.mem_cons_of_mem segment listed))
      (isName_advance named (clean segment List.mem_cons_self))

/-- A path leads along names. -/
theorem isName_of_mem_resolved (path : String) : ∀ name ∈ resolved path, IsName name := by
  refine isName_foldl_advance (fun segment listed c inside => ?_) (by simp)
  exact (Text.of_mem_splitBy listed c inside).2

/-- A name that counts as a segment is its own step. -/
theorem ofSegment_toList {name : String} (named : IsName name) :
    ofSegment name.toList = .name name := by
  rw [ofSegment, if_neg named.ne_dots, String.ofList_toList]

/-- The texts of steps are segments that stand for the steps. -/
theorem trailOf_map_text {components : List Component}
    (proper : ∀ component ∈ components, IsStep component) :
    trailOf ((components.map Component.text).map String.toList) = components := by
  induction components with
  | nil => rfl
  | cons component rest ih =>
    obtain ⟨here, later⟩ := List.forall_mem_cons.mp proper
    rw [List.map_cons, List.map_cons]
    cases here with
    | up => rw [trailOf_cons (by decide), ih later]; rfl
    | @name text named =>
      have counts : ¬ (text.toList.isEmpty || text.toList == ['.']) = true := by
        simp [named.filled, named.ne_dot]
      rw [Component.text, trailOf_cons counts, ih later, ofSegment_toList named]

/-- Names are their own steps. -/
theorem trailOf_map_toList (named : ∀ name ∈ names, IsName name) :
    trailOf (names.map String.toList) = names.map .name := by
  have proper : ∀ component ∈ names.map Component.name, IsStep component := by
    intro component listed
    obtain ⟨name, among, rfl⟩ := List.mem_map.mp listed
    exact .name (named name among)
  have texts : (names.map Component.name).map Component.text = names := by
    rw [List.map_map]
    exact List.map_id names
  rw [← trailOf_map_text proper, texts]

/-- The steps of the path along names are the names. -/
theorem trail_pathOf (named : ∀ name ∈ names, IsName name) :
    trail (Workspace.pathOf names) = names.map .name := by
  have whole : (Workspace.pathOf names).toList =
      '/' :: (Text.joinStrings "/" names).toList := by
    rw [Workspace.pathOf, String.toList_append]
    rfl
  have split : Text.splitOn '/' (Workspace.pathOf names).toList =
      [] :: Text.splitOn '/' (Text.joinStrings "/" names).toList := by
    rw [whole]
    rfl
  rw [trail, split, trailOf_cons_idle (by rfl)]
  cases names with
  | nil => rfl
  | cons first rest =>
    have pieces : Text.splitOn '/' (Text.joinStrings "/" (first :: rest)).toList =
        (first :: rest).map String.toList :=
      Text.splitOn_joinStrings fun name listed => (named name listed).clean
    rw [pieces]
    exact trailOf_map_toList named

/-- Segments without two dots are added to the names. -/
theorem map_foldl_advance (plain : .up ∉ trailOf segments) (names : List String) :
    (segments.foldl Workspace.advance names).map Component.name =
      names.map .name ++ trailOf segments := by
  induction segments generalizing names with
  | nil => simp [trailOf]
  | cons segment rest ih =>
    rw [List.foldl_cons]
    by_cases idle : (segment.isEmpty || segment == ['.']) = true
    · rw [trailOf_cons_idle idle] at plain ⊢
      rw [Workspace.advance, if_pos idle]
      exact ih plain names
    · rw [trailOf_cons idle] at plain ⊢
      obtain ⟨first, others⟩ := not_or.mp (List.mem_cons.not.mp plain)
      have dots : segment ≠ ['.', '.'] := fun same => first (if_pos same).symm
      rw [ih others, Workspace.advance, if_neg idle, if_neg (by simpa using dots), ofSegment,
        if_neg dots, List.map_append, List.append_assoc]
      rfl

/-- A path without two dots leads along its names. -/
theorem map_resolved (plain : .up ∉ trail path) : (resolved path).map .name = trail path :=
  map_foldl_advance plain []

section Relative

/-- What two lists share is the start of both. -/
theorem commonStart_prefix (path base : List Component) :
    commonStart path base <+: path ∧ commonStart path base <+: base := by
  fun_induction commonStart path base with
  | case1 first path base ih =>
    exact ⟨List.cons_prefix_cons.mpr ⟨rfl, ih.1⟩, List.cons_prefix_cons.mpr ⟨rfl, ih.2⟩⟩
  | case2 => simp
  | case3 => simp

/-- A path below a base starts with all of it. -/
theorem commonStart_append (base rest : List Component) :
    commonStart (base ++ rest) base = base := by
  induction base with
  | nil => cases rest <;> rfl
  | cons first base ih => rw [List.cons_append, commonStart, if_pos rfl, ih]

/-- The steps to a place below a base are those after the base. -/
theorem relativeSteps_append (base rest : List Component) :
    relativeSteps (base ++ rest) base = rest := by
  simp [relativeSteps, commonStart_append]

/-- A first step that both share does not matter. -/
theorem relativeSteps_cons (first : Component) (path base : List Component) :
    relativeSteps (first :: path) (first :: base) = relativeSteps path base := by
  simp [relativeSteps, commonStart]

/-- Steps without two dots lead straight down from the base. A step of the base that is not shared
would be left by two dots. -/
theorem exists_eq_append_of_up_not_mem {path base : List Component}
    (absent : .up ∉ relativeSteps path base) : ∃ rest, path = base ++ rest ∧ .up ∉ rest := by
  obtain ⟨onPath, onBase⟩ := commonStart_prefix path base
  rw [relativeSteps, List.mem_append, not_or] at absent
  have shared : base.drop (commonStart path base).length = [] := by
    cases upper : base.drop (commonStart path base).length with
    | nil => rfl
    | cons first others =>
      rw [upper] at absent
      exact absurd List.mem_cons_self absent.1
  have whole : commonStart path base = base := by
    rw [List.prefix_iff_eq_append] at onBase
    rw [shared, List.append_nil] at onBase
    exact onBase
  refine ⟨path.drop (commonStart path base).length, ?_, absent.2⟩
  rw [List.prefix_iff_eq_append] at onPath
  rw [whole] at onPath ⊢
  exact onPath.symm

/-- The components that lead from one path to another are steps. -/
theorem isStep_of_mem_relativeSteps {component : Component}
    (listed : component ∈ relativeSteps (trail path) (trail base)) : IsStep component := by
  rcases List.mem_append.mp listed with above | below
  · obtain ⟨_, -, rfl⟩ := List.mem_map.mp above
    exact .up
  · exact isStep_of_mem_trail (List.mem_of_mem_drop below)

end Relative

/-- Steps written with slashes are cut into their texts. -/
theorem splitOn_segmentsText {components : List Component} (filled : components ≠ [])
    (proper : ∀ component ∈ components, IsStep component) :
    Text.splitOn '/' (segmentsText (components.map Component.text)).toList =
      (components.map Component.text).map String.toList := by
  obtain ⟨first, rest, rfl⟩ := List.exists_cons_of_ne_nil filled
  have clean : ∀ text ∈ (first :: rest).map Component.text,
      ∀ c ∈ text.toList, (c == '/') = false := by
    intro text listed
    obtain ⟨component, among, rfl⟩ := List.mem_map.mp listed
    cases proper component among with
    | up => simp [Component.text]
    | name named => exact named.clean
  exact Text.splitOn_joinStrings clean

/-- Steps written with slashes climb exactly when two dots are among them. -/
theorem climbs_segmentsText {components : List Component}
    (proper : ∀ component ∈ components, IsStep component) :
    Climbs (segmentsText (components.map Component.text)) ↔ .up ∈ components := by
  rcases eq_or_ne components [] with rfl | filled
  · simp [Climbs, segmentsText, Text.joinStrings, Text.splitOn, Text.splitBy]
  · rw [Climbs, splitOn_segmentsText filled proper, List.map_map, List.mem_map]
    constructor
    · rintro ⟨component, among, same⟩
      cases proper component among with
      | up => exact among
      | name named => exact absurd same named.ne_dots
    · intro among
      exact ⟨.up, among, rfl⟩

/-- Absolute paths share their root, so the steps from one to the other are written. -/
theorem relativeTo?_of_isAbsolute (above : isAbsolute base = true)
    (rooted : isAbsolute path = true) :
    relativeTo? path base =
      some (segmentsText ((relativeSteps (trail path) (trail base)).map Component.text)) := by
  have shared : ¬ ((commonStart (steps path) (steps base)).isEmpty = true ∧
      isAbsolute path = true ∧ isAbsolute base = true) := by
    rw [steps_of_isAbsolute rooted, steps_of_isAbsolute above, commonStart, if_pos rfl]
    simp
  rw [relativeTo?, if_neg shared, steps_of_isAbsolute rooted, steps_of_isAbsolute above,
    relativeSteps_cons]

/-- The text that patterns see of an absolute path. -/
theorem matchText_of_isAbsolute (above : isAbsolute base = true) (rooted : isAbsolute path = true)
    (working : String) :
    matchText working path base =
      segmentsText ((relativeSteps (trail path) (trail base)).map Component.text) := by
  have full : absolute working path = path := by rw [absolute, if_pos rooted]
  unfold matchText
  rw [full]
  dsimp only
  rw [relativeTo?_of_isAbsolute above rooted]

/-- The text that patterns see is free of two dots exactly when the path goes straight down. -/
theorem straight_iff (above : isAbsolute base = true) (rooted : isAbsolute path = true)
    (working : String) : Straight path base ↔ ¬ Climbs (matchText working path base) := by
  rw [matchText_of_isAbsolute above rooted, climbs_segmentsText
    fun component listed => isStep_of_mem_relativeSteps listed]
  unfold Straight
  rw [steps_of_isAbsolute rooted, steps_of_isAbsolute above]
  constructor
  · rintro ⟨rest, same, plain⟩
    rw [List.cons_append, List.cons.injEq] at same
    rw [same.2, relativeSteps_append]
    exact plain
  · intro absent
    obtain ⟨rest, same, plain⟩ := exists_eq_append_of_up_not_mem absent
    exact ⟨rest, by rw [same, List.cons_append], plain⟩

/-- A normalized path is absolute. -/
theorem isAbsolute_normalized (path : String) : isAbsolute (normalized path) = true := by
  rw [isAbsolute, normalized, Workspace.pathOf, String.toList_append]
  rfl

/-- The trail of a normalized path is that of the names it leads along. -/
theorem trail_normalized (path : String) : trail (normalized path) = (resolved path).map .name :=
  trail_pathOf (isName_of_mem_resolved path)

/-- Below a base without two dots, the resolved path goes straight down. -/
theorem straight_normalized (above : isAbsolute base = true) (plain : .up ∉ steps base)
    (below : resolved base <+: resolved path) : Straight (normalized path) base := by
  rw [steps_of_isAbsolute above, List.mem_cons, not_or] at plain
  obtain ⟨rest, whole⟩ := below
  refine ⟨rest.map .name, ?_, by simp⟩
  rw [steps_of_isAbsolute (isAbsolute_normalized path), steps_of_isAbsolute above, trail_normalized,
    ← whole, List.map_append, map_resolved plain.2, List.cons_append]

/-- A path that goes straight down from a base without two dots has the steps of the resolved
path. -/
theorem Straight.trail_normalized (rooted : isAbsolute path = true)
    (plain : .up ∉ steps base) (straight : Straight path base) :
    trail (normalized path) = trail path := by
  obtain ⟨rest, same, down⟩ := straight
  have absent : .up ∉ steps path := by
    rw [same, List.mem_append, not_or]
    exact ⟨plain, down⟩
  rw [steps_of_isAbsolute rooted, List.mem_cons, not_or] at absent
  rw [Path.trail_normalized, map_resolved absent.2]

/-- Of a path below a base, patterns see the text of the resolved path exactly when the path goes
straight down. -/
theorem matchText_normalized_iff (above : isAbsolute base = true) (plain : .up ∉ steps base)
    (rooted : isAbsolute path = true) (below : resolved base <+: resolved path)
    (working : String) :
    Straight path base ↔
      matchText working path base = matchText working (normalized path) base := by
  constructor
  · intro straight
    rw [matchText_of_isAbsolute above rooted, matchText_of_isAbsolute above
      (isAbsolute_normalized path), straight.trail_normalized rooted plain]
  · intro same
    have level := (straight_iff above (isAbsolute_normalized path) working).mp
      (straight_normalized above plain below)
    rw [straight_iff above rooted working, same]
    exact level

end CfmlTidy.Path
