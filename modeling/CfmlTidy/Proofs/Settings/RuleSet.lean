import Mathlib
import CfmlTidy.Proofs.Settings.Export
import CfmlTidy.Proofs.Settings.Lookup
import CfmlTidy.Proofs.Text.Lines

/-!
# Activating a rule set

A rule set lays two documents over the settings: its overlay, and one that records its name. So the
settings keep what neither of them mentions, as long as the overlay is an object. A custom entry may
have overrides of any kind, and overrides that are no object take the place of the whole document.
-/

namespace CfmlTidy.Settings

open Json (Ordered Readable)

variable {settings result : Settings} {overlay : Json} {name : String} {keys : List String}
  {entry : List (String × Json)}

/-- The keys of two paths with a dot between them are the keys of both. -/
theorem keysOf_append (front back : String) :
    keysOf (front ++ "." ++ back) = keysOf front ++ keysOf back := by
  have text : (front ++ "." ++ back).toList = front.toList ++ '.' :: back.toList := by simp
  rw [keysOf, text, Text.splitOn_append, List.filter_append, List.map_append]
  rfl

/-- The entry that a name stands for is found under its keys. -/
theorem get?_customRules (settings : Settings) (name : String) :
    settings.get? ("customRules." ++ name) =
      valueAt? settings.document ("customRules" :: keysOf name) :=
  congrArg (valueAt? settings.document) (keysOf_append "customRules" name)

/-- A name has no built-in overlay exactly when it is not that of a built-in rule set. -/
theorem builtinOverlay?_eq_none_iff : builtinOverlay? name = none ↔ name ∉ builtinRuleSets := by
  simp [builtinOverlay?, builtinRuleSets, List.lookup_eq_none_iff]

/-- Overlays that are built in are objects and can be read back. -/
theorem builtinOverlay?_eq_some (found : builtinOverlay? name = some overlay) :
    overlay.isObject = true ∧ Readable 5 overlay := by
  have listed := Json.mem_of_lookup found
  simp only [List.mem_cons, Prod.mk.injEq, List.not_mem_nil, or_false] at listed
  rcases listed with ⟨-, rfl⟩ | ⟨-, rfl⟩ | ⟨-, rfl⟩
  · exact ⟨rfl, Readable.obj List.Pairwise.nil (List.forall_mem_nil _)⟩
  · refine ⟨rfl, Json.readable_object (List.forall_mem_singleton.mpr ?_)⟩
    exact Json.readable_object (List.forall_mem_singleton.mpr (Json.readable_strs 2 _))
  · refine ⟨rfl, Json.readable_object (List.forall_mem_singleton.mpr ?_)⟩
    refine Json.readable_object (List.forall_mem_singleton.mpr ?_)
    refine Json.readable_object (List.forall_mem_cons.mpr ⟨?_, List.forall_mem_singleton.mpr ?_⟩)
    · refine Json.readable_object (List.forall_mem_singleton.mpr ?_)
      exact Readable.int (by decide) (by decide)
    · refine Json.readable_object fun field listed => ?_
      simp only [List.mem_cons, List.not_mem_nil, or_false] at listed
      rcases listed with rfl | rfl | rfl <;> exact Readable.int (by decide) (by decide)

/-- A name has an overlay that is built in, or one that the entry gives for which it stands. -/
theorem ruleSetOverlay_ok_iff :
    settings.ruleSetOverlay name = .ok overlay ↔
      builtinOverlay? name = some overlay ∨
        name ∉ builtinRuleSets ∧ ∃ entry,
          valueAt? settings.document ("customRules" :: keysOf name) = some (.obj entry) ∧
            overlay = (entry.lookup "overrides").getD (.obj []) := by
  rw [ruleSetOverlay, get?_customRules, ← builtinOverlay?_eq_none_iff]
  cases builtinOverlay? name with
  | some other => simp
  | none =>
    cases valueAt? settings.document ("customRules" :: keysOf name) with
    | none => simp
    | some value => cases value <;> simp [eq_comm]

/-- The overlay that a custom entry gives. -/
theorem overlay_of_custom (custom : name ∉ builtinRuleSets)
    (found : settings.get? ("customRules." ++ name) = some (.obj entry))
    (given : settings.ruleSetOverlay name = .ok overlay) :
    overlay = (entry.lookup "overrides").getD (.obj []) := by
  rcases ruleSetOverlay_ok_iff.mp given with builtin | ⟨-, other, listed, same⟩
  · rw [builtinOverlay?_eq_none_iff.mpr custom] at builtin
    contradiction
  · rw [get?_customRules, listed] at found
    obtain rfl := Json.obj.inj (Option.some.inj found)
    exact same

/-- The overlay of a rule set lists its fields in order when the document does. -/
theorem ordered_of_ruleSetOverlay (ordered : settings.document.Ordered)
    (given : settings.ruleSetOverlay name = .ok overlay) : overlay.Ordered := by
  rcases ruleSetOverlay_ok_iff.mp given with builtin | ⟨-, entry, found, rfl⟩
  · exact (builtinOverlay?_eq_some builtin).2.ordered
  · cases overrides : entry.lookup "overrides" with
    | none => exact Ordered.obj List.Pairwise.nil (List.forall_mem_nil _)
    | some value => exact (ordered_of_valueAt? ordered found).of_field? overrides

/-- An overlay that is no object comes from the custom rules. -/
theorem exists_customRules (given : settings.ruleSetOverlay name = .ok overlay)
    (scalar : overlay.isObject = false) :
    ∃ rules, valueAt? settings.document ["customRules"] = some rules := by
  rcases ruleSetOverlay_ok_iff.mp given with builtin | ⟨-, entry, found, -⟩
  · rw [(builtinOverlay?_eq_some builtin).1] at scalar
    contradiction
  · rw [← List.singleton_append, valueAt?_append] at found
    obtain ⟨rules, here, -⟩ := Option.bind_eq_some_iff.mp found
    exact ⟨rules, here⟩

/-- The document that records the name of a rule set. -/
def marker (name : String) : Json := .obj [("linting", .obj [("ruleSet", .str name)])]

/-- The document that records a name is ordered. -/
theorem ordered_marker (name : String) : (marker name).Ordered := .single (.single (.str name))

/-- Keys that neither lead to the recorded name, nor to a part of the way to it, nor beyond it. -/
def Apart (keys : List String) : Prop :=
  ¬ keys <+: ["linting", "ruleSet"] ∧ ¬ ["linting", "ruleSet"] <+: keys

/-- Keys apart from the recorded name are not empty. -/
theorem Apart.ne_nil (apart : Apart keys) : keys ≠ [] := by
  rintro rfl
  exact apart.1 List.nil_prefix

/-- The document that records the name mentions nothing apart. -/
theorem not_mentions_marker (apart : Apart keys) (name : String) :
    ¬ Mentions (marker name) keys := by
  rintro ⟨way, value, filled, onTheWay, found, ends⟩
  obtain ⟨first, rest, rfl⟩ := List.exists_cons_of_ne_nil filled
  obtain ⟨rfl, inside⟩ := (valueAt?_single _ _ first rest).mp found
  cases rest with
  | nil =>
    rcases ends with rfl | scalar
    · exact apart.1 ⟨["ruleSet"], rfl⟩
    · obtain rfl := Option.some.inj inside
      contradiction
  | cons second more =>
    obtain ⟨rfl, -⟩ := (valueAt?_single _ _ second more).mp inside
    exact apart.2 (List.IsPrefix.trans ⟨more, rfl⟩ onTheWay)

/-- Activation lays the overlay over the settings and then records the name. -/
theorem withRuleSet_ok_iff :
    settings.withRuleSet name = .ok result ↔
      ∃ overlay, settings.ruleSetOverlay name = .ok overlay ∧
        result = (settings.withOverlay overlay).withOverlay (marker name) := by
  rw [withRuleSet]
  cases settings.ruleSetOverlay name with
  | error problem => simp [bind, Except.bind]
  | ok overlay => simp [bind, Except.bind, pure, Except.pure, marker, eq_comm]

/-- After activation the name is recorded. -/
theorem get?_ruleSet (activated : settings.withRuleSet name = .ok result) :
    result.get? "linting.ruleSet" = some (.str name) := by
  obtain ⟨overlay, -, rfl⟩ := withRuleSet_ok_iff.mp activated
  have found : valueAt? (marker name) (keysOf "linting.ruleSet") = some (.str name) := rfl
  refine (valueAt?_merge_of_found (ordered_marker name) _ found).trans ?_
  rw [laidOver_of _ rfl]

/-- Settings with a rule set record its name. -/
theorem getStr_ruleSet (activated : settings.withRuleSet name = .ok result) :
    result.getStr "linting.ruleSet" "" = name := by
  rw [getStr, get?_ruleSet activated]

/-- Nothing is found beyond the recorded name. -/
theorem valueAt?_beyond_ruleSet (activated : settings.withRuleSet name = .ok result)
    (beyond : ["linting", "ruleSet"] <+: keys) (further : keys ≠ ["linting", "ruleSet"]) :
    valueAt? result.document keys = none := by
  obtain ⟨rest, rfl⟩ := beyond
  have recorded : valueAt? result.document ["linting", "ruleSet"] = some (.str name) :=
    get?_ruleSet activated
  rw [valueAt?_append, recorded, Option.bind_some]
  cases rest with
  | nil => exact absurd rfl further
  | cons key rest => exact valueAt?_cons_of_not_isObject rfl key rest

section Layers

variable (activated : settings.withRuleSet name = .ok result)
  (given : settings.ruleSetOverlay name = .ok overlay)

include activated given

/-- Activating a rule set lays its overlay over the document, and then the recorded name. -/
theorem document_of_withRuleSet :
    result.document = merge (merge settings.document overlay) (marker name) := by
  obtain ⟨other, same, rfl⟩ := withRuleSet_ok_iff.mp activated
  obtain rfl := Except.ok.inj (given.symm.trans same)
  rfl

/-- Activation keeps what an object as overlay does not mention. -/
theorem valueAt?_withRuleSet (ordered : settings.document.Ordered)
    (object : overlay.isObject = true) (apart : Apart keys) (silent : ¬ Mentions overlay keys) :
    valueAt? result.document keys = valueAt? settings.document keys := by
  rw [document_of_withRuleSet activated given,
    valueAt?_merge_of_not_mentions (ordered_marker name) _ rfl apart.ne_nil
      (not_mentions_marker apart name),
    valueAt?_merge_of_not_mentions (ordered_of_ruleSetOverlay ordered given) _ object apart.ne_nil
      silent]

/-- After activation with any other overlay nothing but the name is left. -/
theorem valueAt?_withRuleSet_of_not_isObject (scalar : overlay.isObject = false)
    (apart : Apart keys) : valueAt? result.document keys = none := by
  obtain ⟨first, rest, rfl⟩ := List.exists_cons_of_ne_nil apart.ne_nil
  rw [document_of_withRuleSet activated given,
    valueAt?_merge_of_not_mentions (ordered_marker name) _ rfl apart.ne_nil
      (not_mentions_marker apart name),
    merge_of _ scalar, valueAt?_cons_of_not_isObject scalar]

end Layers

/-- Activating a rule set keeps everything that its overlay does not mention, apart from the recorded
name, exactly when the overlay is an object, as those are that are built in. Otherwise the overlay
takes the place of the whole document, and every path apart from the recorded name leads to nothing.
An overlay comes from a custom entry as its overrides, whatever they are; without overrides every
path apart keeps its value. -/
theorem withRuleSet_frame_iff (ordered : settings.document.Ordered)
    (activated : settings.withRuleSet name = .ok result) :
    ∃ overlay, settings.ruleSetOverlay name = .ok overlay ∧
      ((∀ path, Apart (keysOf path) → ¬ Mentions overlay (keysOf path) →
          result.get? path = settings.get? path) ↔ overlay.isObject = true) ∧
      (name ∈ builtinRuleSets → overlay.isObject = true) ∧
      (overlay.isObject = false → ∀ path, Apart (keysOf path) → result.get? path = none) ∧
      (∀ path, ["linting", "ruleSet"] <+: keysOf path → keysOf path ≠ ["linting", "ruleSet"] →
        result.get? path = none) ∧
      (∀ entry, name ∉ builtinRuleSets →
        settings.get? ("customRules." ++ name) = some (.obj entry) →
          (∀ overrides, entry.lookup "overrides" = some overrides → overlay = overrides) ∧
          (entry.lookup "overrides" = none →
            ∀ path, Apart (keysOf path) → result.get? path = settings.get? path)) ∧
      result.baseDir = settings.baseDir ∧ result.source = settings.source := by
  obtain ⟨overlay, given, laid⟩ := withRuleSet_ok_iff.mp activated
  have places : result.baseDir = settings.baseDir ∧ result.source = settings.source := by
    rw [laid]
    exact ⟨rfl, rfl⟩
  refine ⟨overlay, given, ⟨fun keeps => ?_, fun object path apart silent => ?_⟩,
    fun builtin => ?_, fun scalar path apart => ?_, fun path beyond further => ?_,
    fun entry custom found => ?_, places⟩
  · by_contra other
    have scalar := Bool.eq_false_of_not_eq_true other
    obtain ⟨rules, present⟩ := exists_customRules given scalar
    have apart : Apart (keysOf "customRules") := ⟨by decide, by decide⟩
    have kept := keeps "customRules" apart
      (not_mentions_of_bare (Json.field?_of_not_isObject scalar) _)
    have lost := valueAt?_withRuleSet_of_not_isObject activated given scalar apart
    exact Option.some_ne_none rules (present.symm.trans (kept.symm.trans lost))
  · exact valueAt?_withRuleSet activated given ordered object apart silent
  · rcases ruleSetOverlay_ok_iff.mp given with found | ⟨custom, -⟩
    · exact (builtinOverlay?_eq_some found).1
    · exact absurd builtin custom
  · exact valueAt?_withRuleSet_of_not_isObject activated given scalar apart
  · exact valueAt?_beyond_ruleSet activated beyond further
  · have overrides := overlay_of_custom custom found given
    constructor
    · intro value listed
      rw [overrides, listed, Option.getD_some]
    · intro missing path apart
      rw [missing, Option.getD_none] at overrides
      exact valueAt?_withRuleSet activated given ordered (overrides ▸ rfl) apart
        (overrides ▸ not_mentions_of_bare (fun _ => rfl) _)

/-- Settings with a custom entry that overrides one value. -/
def house : Settings where
  document := .obj [("customRules", .obj [("house", .obj [("disabled", .strs ["REQUIRE_INIT"]),
      ("overrides", .obj [("linting", .obj [("enabled", .bool false)])])])]),
    ("linting", .obj [("disabledRules", .strs ["USE_ACCESSORS"]), ("enabled", .bool true)])]
  baseDir := "/work"
  source := some "/work/cfml-lint.json"

/-- The settings of the house have an ordered document. -/
theorem ordered_house : house.document.Ordered := by
  refine .pair (by decide) (.single ?entry) (.pair (by decide) (.strs _) (.bool true))
  exact .pair (by decide) (.strs _) (.single (.single (.bool false)))

/-- The entry of the house is activated, and all that it does not override stays. -/
theorem withRuleSet_frame_house :
    ∃ result, house.document.Ordered ∧ house.withRuleSet "house" = .ok result ∧
      result.get? "customRules" = house.get? "customRules" ∧
      result.get? "linting.disabledRules" = house.get? "linting.disabledRules" ∧
      result.baseDir = house.baseDir ∧ result.source = house.source := by
  obtain ⟨result, activated⟩ : ∃ result, house.withRuleSet "house" = .ok result := ⟨_, rfl⟩
  obtain ⟨overlay, given, frame, -, -, -, -, places⟩ := withRuleSet_frame_iff ordered_house activated
  obtain rfl := Except.ok.inj given
  have keeps := frame.mpr rfl
  refine ⟨result, ordered_house, activated, ?_, ?_, places⟩
  · exact keeps "customRules" ⟨by decide, by decide⟩ (by decide)
  · exact keeps "linting.disabledRules" ⟨by decide, by decide⟩ (by decide)

/-- Settings with a custom entry whose overrides were left empty. -/
def emptied : Settings :=
  layered (.obj [("customRules", .obj [("legacy", .obj [("disabled", .strs ["REQUIRE_INIT"]),
    ("overrides", .null)])]), ("includes", .strs ["src/**/*.cfc"])]) "/base"

/-- Overrides that are null mention nothing, but all settings are lost to them. -/
theorem withRuleSet_loses_settings :
    ∃ result, emptied.withRuleSet "legacy" = .ok result ∧
      emptied.ruleSetOverlay "legacy" = .ok .null ∧ Apart (keysOf "includes") ∧
      ¬ Mentions .null (keysOf "includes") ∧
      emptied.get? "includes" = some (.strs ["src/**/*.cfc"]) ∧ result.get? "includes" = none ∧
      emptied.getBool "performance.parallelProcessing" false = true ∧
      result.get? "performance.parallelProcessing" = none := by
  exact ⟨_, rfl, rfl, ⟨by decide, by decide⟩, by decide, rfl, rfl, rfl, rfl⟩

end CfmlTidy.Settings
