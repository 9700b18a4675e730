import Mathlib
import CfmlTidy.Proofs.Settings.RuleSet

/-!
# Which rule sets are accepted

A name that is not built in stands for the custom entry at a path, and the keys of a path are what
stands between its dots. This is the entry under the name itself exactly when the name is one key
(`IsKey`): the empty name and names made of dots stand for the custom rules as a whole, and other
names with dots for an entry further down. So a rule set is accepted exactly when it is defined, in
all settings, for the built-in names and the names that are keys, and for no others.
-/

namespace CfmlTidy.Settings

open Json (Ordered)

variable {settings result : Settings} {document overlay : Json} {name key path : String}
  {keys : List String} {entry : List (String × Json)}

/-! ### Names as keys -/

/-- A name that is one key of a path: it is not empty and has no dot. -/
def IsKey (name : String) : Prop := name ≠ "" ∧ '.' ∉ name.toList

/-- The keys of a path are keys. -/
theorem isKey_of_mem_keysOf (listed : key ∈ keysOf path) : IsKey key := by
  obtain ⟨piece, kept, rfl⟩ := List.mem_map.mp listed
  obtain ⟨between, filled⟩ := List.mem_filter.mp kept
  constructor
  · rintro empty
    rw [String.ofList_eq_empty_iff.mp empty] at filled
    contradiction
  · intro dotted
    rw [String.toList_ofList] at dotted
    have uncut := (Text.of_mem_splitBy between '.' dotted).2
    contradiction

/-- A single key is its own path. -/
theorem keysOf_of_isKey (single : IsKey name) : keysOf name = [name] := by
  have uncut : ∀ c ∈ name.toList, (c == '.') = false := fun c inside =>
    beq_eq_false_iff_ne.mpr fun dot => single.2 (dot ▸ inside)
  have filled : name.toList ≠ [] := fun empty => single.1 (String.toList_eq_nil_iff.mp empty)
  rw [keysOf, Text.splitOn, Text.splitBy_of_uncut uncut]
  simp [filled]

/-- The rules that an entry switches off are found in the entry. -/
theorem get?_customRules_disabled (settings : Settings) (name : String) :
    settings.get? ("customRules." ++ name ++ ".disabled") =
      valueAt? settings.document (("customRules" :: keysOf name) ++ ["disabled"]) := by
  have dotted : "customRules." ++ name ++ ".disabled" =
      "customRules" ++ "." ++ (name ++ "." ++ "disabled") := by
    rw [← String.toList_inj]
    simp
  rw [dotted, get?, keysOf_append, keysOf_append]
  rfl

/-! ### Custom entries -/

/-- The custom rules have an object under exactly this name. -/
def HasEntry (settings : Settings) (name : String) (entry : List (String × Json)) : Prop :=
  ∃ members, settings.document.field? "customRules" = some (.obj members) ∧
    members.lookup name = some (.obj entry)

/-- An entry is there when it is found under its name among the custom rules. -/
theorem hasEntry_iff :
    HasEntry settings name entry ↔
      valueAt? settings.document ["customRules", name] = some (.obj entry) := by
  constructor
  · rintro ⟨members, rules, listed⟩
    have found : (Json.obj members).field? name = some (.obj entry) := listed
    rw [valueAt?, rules, Option.bind_some, valueAt?, found]
    rfl
  · intro found
    obtain ⟨rules, here, inside⟩ := Option.bind_eq_some_iff.mp found
    cases rules with
    | obj members =>
      obtain ⟨value, listed, same⟩ := Option.bind_eq_some_iff.mp inside
      obtain rfl := Option.some.inj same
      exact ⟨members, here, listed⟩
    | null | bool | int | real | str | arr => contradiction

/-- The rules that an entry switches off. -/
def switchedOff (entry : List (String × Json)) : List String :=
  match entry.lookup "disabled" with
  | some (.arr items) => items.filterMap Json.asString?
  | _ => []

/-- An object that mentions nothing under some keys. -/
def LeavesAlone (overlay : Json) (keys : List String) : Prop :=
  overlay.isObject = true ∧ ¬ Mentions overlay keys

/-- A rule set is accepted when it is built in or an object stands where its name leads to. -/
theorem withRuleSet_accepted_iff :
    (∃ result, settings.withRuleSet name = .ok result) ↔
      name ∈ builtinRuleSets ∨
        ∃ entry, valueAt? settings.document ("customRules" :: keysOf name) = some (.obj entry) := by
  simp only [withRuleSet_ok_iff, ruleSetOverlay_ok_iff]
  constructor
  · rintro ⟨-, overlay, builtin | ⟨-, entry, found, -⟩, -⟩
    · by_contra unknown
      rw [builtinOverlay?_eq_none_iff.mpr fun listed => unknown (Or.inl listed)] at builtin
      contradiction
    · exact Or.inr ⟨entry, found⟩
  · intro known
    by_cases listed : name ∈ builtinRuleSets
    · obtain ⟨overlay, builtin⟩ := Option.ne_none_iff_exists'.mp
        fun absent => builtinOverlay?_eq_none_iff.mp absent listed
      exact ⟨_, overlay, Or.inl builtin, rfl⟩
    · obtain ⟨entry, found⟩ := known.resolve_left listed
      exact ⟨_, _, Or.inr ⟨listed, entry, found, rfl⟩, rfl⟩

/-- A rule set that is not accepted is reported as unknown. -/
theorem withRuleSet_error {problem : Problem}
    (refused : settings.withRuleSet name = .error problem) : problem = unknownRuleSet name := by
  rw [withRuleSet] at refused
  cases given : settings.ruleSetOverlay name with
  | ok overlay =>
    rw [given] at refused
    contradiction
  | error other =>
    rw [given] at refused
    obtain rfl := Except.error.inj refused
    rw [ruleSetOverlay] at given
    split at given
    · contradiction
    · split at given
      · contradiction
      · exact (Except.error.inj given).symm

/-- After a custom rule set is activated, the rules that are switched off are those of the settings
and those of the entry; the empty name stands for no entry here. -/
theorem disabledRules_withRuleSet (ordered : settings.document.Ordered)
    (custom : name ∉ builtinRuleSets)
    (found : valueAt? settings.document ("customRules" :: keysOf name) = some (.obj entry))
    (activated : settings.withRuleSet name = .ok result)
    (aside : ∀ overrides, entry.lookup "overrides" = some overrides →
      LeavesAlone overrides ["customRules"] ∧
        LeavesAlone overrides ["linting", "disabledRules"]) :
    result.disabledRules = settings.getList "linting.disabledRules" [] ++
      if name = "" then [] else switchedOff entry := by
  obtain ⟨overlay, given, -⟩ := withRuleSet_ok_iff.mp activated
  have overrides := overlay_of_custom custom (get?_customRules settings name ▸ found) given
  have alone : LeavesAlone overlay ["customRules"] ∧
      LeavesAlone overlay ["linting", "disabledRules"] := by
    cases listed : entry.lookup "overrides" with
    | none =>
      rw [overrides, listed]
      have silent := not_mentions_of_bare (fun _ => rfl : ∀ key, (Json.obj []).field? key = none)
      exact ⟨⟨rfl, silent _⟩, ⟨rfl, silent _⟩⟩
    | some value =>
      rw [overrides, listed]
      exact aside value listed
  obtain ⟨⟨object, rules⟩, ⟨-, list⟩⟩ := alone
  have keptList : result.get? "linting.disabledRules" = settings.get? "linting.disabledRules" :=
    valueAt?_withRuleSet activated given ordered object ⟨by decide, by decide⟩ list
  have keptEntry : result.get? ("customRules." ++ name ++ ".disabled") =
      entry.lookup "disabled" := by
    have apart : Apart (("customRules" :: keysOf name) ++ ["disabled"]) := by
      constructor <;> simp [List.cons_prefix_cons]
    have silent : ¬ Mentions overlay (["customRules"] ++ (keysOf name ++ ["disabled"])) :=
      not_mentions_append (by simp) rules _
    rw [get?_customRules_disabled,
      valueAt?_withRuleSet activated given ordered object apart silent, valueAt?_append, found]
    exact Option.bind_fun_some _
  have listed : result.getList "linting.disabledRules" [] =
      settings.getList "linting.disabledRules" [] := by
    rw [getList, getList, keptList]
  have switched : result.getList ("customRules." ++ name ++ ".disabled") [] = switchedOff entry := by
    rw [getList, keptEntry]
    rfl
  rw [disabledRules]
  simp only [getStr_ruleSet activated, listed, switched, String.isEmpty_iff]
  split_ifs <;> simp

/-- Rule sets of a name are accepted exactly when they are defined, and then they are in force. -/
structure ActivatesDefined (settings : Settings) (name : String) : Prop where
  /-- A rule set is accepted when it is built in or has an entry. -/
  accepted : (∃ result, settings.withRuleSet name = .ok result) ↔
    name ∈ builtinRuleSets ∨ ∃ entry, HasEntry settings name entry
  /-- The name reads back. -/
  recorded : ∀ result, settings.withRuleSet name = .ok result →
    result.get? "linting.ruleSet" = some (.str name) ∧ result.getStr "linting.ruleSet" "" = name
  /-- The rules that the entry switches off follow those that the settings switch off, unless its
  overrides touch either. -/
  disabled : ∀ entry result, name ∉ builtinRuleSets → HasEntry settings name entry →
    settings.withRuleSet name = .ok result →
    (∀ overrides, entry.lookup "overrides" = some overrides →
      LeavesAlone overrides ["customRules"] ∧
        LeavesAlone overrides ["linting", "disabledRules"]) →
    result.disabledRules = settings.getList "linting.disabledRules" [] ++ switchedOff entry

/-- What a name stands for is found under its keys, so a name that is one key stands for the entry
under the name. -/
theorem activatesDefined_of_isKey (ordered : settings.document.Ordered)
    (known : name ∈ builtinRuleSets ∨ IsKey name) : ActivatesDefined settings name := by
  have recorded (result : Settings) (activated : settings.withRuleSet name = .ok result) :
      result.get? "linting.ruleSet" = some (.str name) ∧
        result.getStr "linting.ruleSet" "" = name :=
    ⟨get?_ruleSet activated, getStr_ruleSet activated⟩
  by_cases builtin : name ∈ builtinRuleSets
  · have accepted := withRuleSet_accepted_iff.mpr (Or.inl builtin : name ∈ builtinRuleSets ∨
      ∃ entry, valueAt? settings.document ("customRules" :: keysOf name) = some (.obj entry))
    exact ⟨⟨fun _ => Or.inl builtin, fun _ => accepted⟩, recorded,
      fun _ _ custom => absurd builtin custom⟩
  · have single := known.resolve_left builtin
    have keys := keysOf_of_isKey single
    refine ⟨?_, recorded, fun entry result custom has activated aside => ?_⟩
    · rw [withRuleSet_accepted_iff, keys]
      simp only [hasEntry_iff]
    · have found := hasEntry_iff.mp has
      rw [← keys] at found
      rw [disabledRules_withRuleSet ordered custom found activated aside, if_neg single.1]

/-- Settings that consist of custom rules. -/
def ofCustomRules (members : List (String × Json)) : Settings :=
  ⟨.obj [("customRules", .obj members)], "/work", none⟩

/-- What stands under the custom rules of settings is what stands in their members. -/
theorem valueAt?_ofCustomRules (members : List (String × Json)) (keys : List String) :
    valueAt? (ofCustomRules members).document ("customRules" :: keys) =
      valueAt? (.obj members) keys := rfl

/-- Any other name is accepted without an entry, or refused although it has one. The empty name
stands for the custom rules as a whole, which may be empty. A name with a dot stands for something
at or below another entry, which may be missing. -/
theorem exists_not_activatesDefined (custom : name ∉ builtinRuleSets) (several : ¬ IsKey name) :
    ∃ settings : Settings, settings.document.Ordered ∧ ¬ ActivatesDefined settings name := by
  have empty : Ordered (.obj []) := .obj List.Pairwise.nil (List.forall_mem_nil _)
  cases keys : keysOf name with
  | nil =>
    refine ⟨ofCustomRules [], .single empty, fun activates => ?_⟩
    have whole : valueAt? (ofCustomRules []).document ("customRules" :: keysOf name) =
        some (.obj []) := by rw [keys, valueAt?_ofCustomRules, valueAt?]
    have accepted := withRuleSet_accepted_iff.mpr (Or.inr ⟨[], whole⟩)
    rcases activates.accepted.mp accepted with builtin | ⟨entry, has⟩
    · exact custom builtin
    · rw [hasEntry_iff, valueAt?_ofCustomRules] at has
      contradiction
  | cons key rest =>
    have other : key ≠ name := by
      rintro rfl
      exact several (isKey_of_mem_keysOf (keys ▸ List.mem_cons_self))
    refine ⟨ofCustomRules [(name, .obj [])], .single (.single empty), fun activates => ?_⟩
    have has : HasEntry (ofCustomRules [(name, .obj [])]) name [] := by
      rw [hasEntry_iff, valueAt?_ofCustomRules, valueAt?_single]
      exact ⟨rfl, rfl⟩
    rcases withRuleSet_accepted_iff.mp (activates.accepted.mpr (Or.inr ⟨[], has⟩)) with
      builtin | ⟨entry, found⟩
    · exact custom builtin
    · rw [keys, valueAt?_ofCustomRules, valueAt?_single] at found
      exact other found.1

/-- In all settings a rule set is accepted exactly when it is defined, and is then in force, if and
only if its name is built in or is one key. For every name it holds that a rule set is accepted
exactly when it is built in or an object stands where its name leads to among the custom rules, that
any other is reported as unknown, that the name reads back, and that the rules of the object are
switched off besides those of the settings, unless the name is empty. -/
theorem activatesDefined_iff (name : String) :
    ((∀ settings : Settings, settings.document.Ordered → ActivatesDefined settings name) ↔
      name ∈ builtinRuleSets ∨ IsKey name) ∧
    ∀ settings : Settings,
      ((∃ result, settings.withRuleSet name = .ok result) ↔
        name ∈ builtinRuleSets ∨ ∃ entry,
          valueAt? settings.document ("customRules" :: keysOf name) = some (.obj entry)) ∧
      (∀ problem, settings.withRuleSet name = .error problem → problem = unknownRuleSet name) ∧
      ∀ result, settings.withRuleSet name = .ok result →
        result.get? "linting.ruleSet" = some (.str name) ∧
        result.getStr "linting.ruleSet" "" = name ∧
        ∀ entry, settings.document.Ordered → name ∉ builtinRuleSets →
          valueAt? settings.document ("customRules" :: keysOf name) = some (.obj entry) →
          (∀ overrides, entry.lookup "overrides" = some overrides →
            LeavesAlone overrides ["customRules"] ∧
              LeavesAlone overrides ["linting", "disabledRules"]) →
          result.disabledRules = settings.getList "linting.disabledRules" [] ++
            if name = "" then [] else switchedOff entry := by
  refine ⟨⟨fun activates => ?_, fun known settings ordered => ?_⟩, fun settings => ⟨?_, ?_, ?_⟩⟩
  · by_contra unknown
    obtain ⟨custom, several⟩ := not_or.mp unknown
    obtain ⟨settings, ordered, fails⟩ := exists_not_activatesDefined custom several
    exact fails (activates settings ordered)
  · exact activatesDefined_of_isKey ordered known
  · exact withRuleSet_accepted_iff
  · exact fun problem => withRuleSet_error
  · refine fun result activated => ⟨get?_ruleSet activated, getStr_ruleSet activated, ?_⟩
    exact fun entry ordered custom found aside =>
      disabledRules_withRuleSet ordered custom found activated aside

/-- Settings whose custom rules have an entry with a dot in its name. -/
def versioned : Settings :=
  layered (.obj [("customRules", .obj [("team.v2", .obj [("disabled", .strs ["REQUIRE_INIT"])])])])
    "/base"

/-- The empty name is accepted without an entry, and an entry with a dot in its name is unknown. -/
theorem withRuleSet_misses_entry :
    (¬ ∃ entry, HasEntry versioned "" entry) ∧
      (∃ result, versioned.withRuleSet "" = .ok result) ∧
      HasEntry versioned "team.v2" [("disabled", .strs ["REQUIRE_INIT"])] ∧
      versioned.withRuleSet "team.v2" = .error (unknownRuleSet "team.v2") := by
  refine ⟨?_, ⟨_, rfl⟩, hasEntry_iff.mpr rfl, rfl⟩
  rintro ⟨entry, has⟩
  have absent : valueAt? versioned.document ["customRules", ""] = none := rfl
  rw [hasEntry_iff, absent] at has
  contradiction

end CfmlTidy.Settings
