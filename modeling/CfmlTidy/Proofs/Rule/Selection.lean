import Mathlib
import CfmlTidy.Proofs.Parse.Issue
import CfmlTidy.Proofs.Text.Lines
import CfmlTidy.Rule.Registry

/-!
# Rules stand alone

What rules find in a file is what each of them contributes, one after the other, and a rule that
fails contributes one warning. Switching rules off takes their violations out and leaves all others
as they are. Which rules are off can be read from the items of a selection, whatever their order and
however often they are repeated, and from the settings.
-/

namespace CfmlTidy

namespace Text

/-- Upper case and lower case of a letter have one lower case. -/
theorem lower_upper (c : Char) : lower (upper c) = lower c := by
  unfold upper
  split_ifs with small
  · have first : 97 ≤ c.toNat := small.1
    have last : c.toNat ≤ 122 := small.2
    have number : (Char.ofNat (c.toNat - 32)).toNat = c.toNat - 32 := by
      rw [Char.toNat_ofNat, if_pos (Or.inl (by omega))]
    have large : 'A' ≤ Char.ofNat (c.toNat - 32) ∧ Char.ofNat (c.toNat - 32) ≤ 'Z' := by
      change 65 ≤ (Char.ofNat (c.toNat - 32)).toNat ∧ (Char.ofNat (c.toNat - 32)).toNat ≤ 90
      omega
    have other : ¬ ('A' ≤ c ∧ c ≤ 'Z') := by
      change ¬ (65 ≤ c.toNat ∧ c.toNat ≤ 90)
      omega
    have back : c.toNat - 32 + 32 = c.toNat := by omega
    rw [lower, lower, if_pos large, if_neg other, number, back, Char.ofNat_toNat]
  · rfl

/-- Case does not count for the upper case of a text. -/
theorem sameIgnoringCase_uppered (text id : List Char) :
    sameIgnoringCase (uppered (String.ofList text)).toList id = sameIgnoringCase text id := by
  rw [sameIgnoringCase, sameIgnoringCase, uppered, String.toList_ofList, String.toList_ofList,
    List.map_map]
  have same : lower ∘ upper = lower := funext lower_upper
  rw [same]

end Text

namespace Rule

variable {subject : Subject} {rules : List Rule}

/-- A warning at the first place of a file that a rule failed on it. -/
structure TellsFailure (subject : Subject) (rule : Rule) (failure : Failure) (warning : Violation) :
    Prop where
  /-- It is a violation of no rule. -/
  ruleId_eq : warning.ruleId = "RULE_EXECUTION_ERROR"
  /-- It is a warning. -/
  severity_eq : warning.severity = .warning
  /-- It is about the file. -/
  file_eq : warning.file = subject.parsed.path
  /-- It lies on the first line. -/
  line_eq : warning.line = 1
  /-- It lies in the first column. -/
  column_eq : warning.column = 1
  /-- It names the rule and says how it failed. -/
  message_eq : warning.message = "Rule " ++ rule.id ++ " failed: " ++ failure.message

/-- What a rule contributes for a file. -/
inductive Contributes (subject : Subject) (rule : Rule) : List Violation → Prop where
  /-- The violations it finds. -/
  | found {violations : List Violation} (checked : rule.check subject = .ok violations) :
    Contributes subject rule violations
  /-- One warning, when it fails. -/
  | failed {failure : Failure} {warning : Violation} (broke : rule.check subject = .error failure)
    (tells : TellsFailure subject rule failure warning) : Contributes subject rule [warning]

/-- What a rule comes to is what it contributes. -/
theorem contributes_outcome (subject : Subject) (rule : Rule) :
    Contributes subject rule (rule.outcome subject) := by
  unfold outcome
  cases checked : rule.check subject with
  | ok violations => exact .found checked
  | error failure => exact .failed checked ⟨rfl, rfl, rfl, rfl, rfl, rfl⟩

/-- What rules find is what each of them contributes, in order. -/
theorem analyze_eq_flatten (subject : Subject) (rules : List Rule) :
    ∃ parts, List.Forall₂ (Contributes subject) rules parts ∧
      analyze rules subject = parts.flatten := by
  refine ⟨rules.map (outcome · subject), ?_, List.flatMap_def⟩
  rw [List.forall₂_map_right_iff, List.forall₂_same]
  intro rule _
  exact contributes_outcome subject rule

/-- Leaving rules out takes out what they contribute. -/
theorem analyze_filter (subject : Subject) (keep : Rule → Bool) (rules : List Rule) :
    analyze (rules.filter keep) subject =
      rules.flatMap fun rule => if keep rule then rule.outcome subject else [] := by
  induction rules with
  | nil => rfl
  | cons rule rest ih =>
    rw [analyze] at ih
    rw [analyze, List.flatMap_cons, ← ih]
    by_cases kept : keep rule = true
    · rw [List.filter_cons_of_pos kept, List.flatMap_cons, if_pos kept]
    · rw [List.filter_cons_of_neg kept, if_neg kept, List.nil_append]

/-- Every built-in rule is given by what it finds. -/
theorem exists_ofFindings {rule : Rule} (listed : rule ∈ builtin) :
    ∃ find, rule = ofFindings rule.id rule.category rule.description find := by
  simp only [builtin, List.mem_cons, List.not_mem_nil, or_false] at listed
  rcases listed with rfl | rfl | rfl | rfl | rfl | rfl | rfl | rfl | rfl | rfl | rfl | rfl | rfl |
    rfl | rfl | rfl | rfl | rfl | rfl <;> exact ⟨_, rfl⟩

/-- Violations of a built-in rule carry its id. -/
theorem ruleId_of_mem_builtin {rule : Rule} (listed : rule ∈ builtin) {violation : Violation}
    (found : violation ∈ rule.outcome subject) : violation.ruleId = rule.id := by
  obtain ⟨find, given⟩ := exists_ofFindings listed
  rw [given] at found
  obtain ⟨finding, -, rfl⟩ := List.mem_map.mp found
  rfl

/-- Leaving built-in rules out takes out the violations with their ids. -/
theorem filter_analyze (keep : String → Bool) (known : rules ⊆ builtin) :
    (analyze rules subject).filter (fun violation => keep violation.ruleId) =
      analyze (rules.filter fun rule => keep rule.id) subject := by
  have each : ∀ rule ∈ rules,
      (rule.outcome subject).filter (fun violation => keep violation.ruleId) =
        if keep rule.id then rule.outcome subject else [] := by
    intro rule listed
    by_cases kept : keep rule.id = true
    · rw [if_pos kept, List.filter_eq_self]
      intro violation found
      rw [ruleId_of_mem_builtin (known listed) found]
      exact kept
    · rw [if_neg kept, List.filter_eq_nil_iff]
      intro violation found
      rw [ruleId_of_mem_builtin (known listed) found]
      exact kept
  rw [analyze_filter, analyze, List.filter_flatMap]
  exact List.flatMap_congr each

end Rule

namespace RuleSelection

open CfmlTidy.Text (sameIgnoringCase trim uppered)

/-- The items of a selection: what stands between commas, without the blanks around it. -/
def items (text : String) : List (List Char) :=
  ((Text.splitOn ',' text.toList).map trim).filter (!·.isEmpty)

/-- An item with a hyphen and an id. -/
def SwitchesOff (id : String) (item : List Char) : Prop :=
  item.head? = some '-' ∧ sameIgnoringCase (trim item.tail) id.toList = true

/-- An item with a plus and an id, or with an id alone. -/
def SwitchesOn (id : String) (item : List Char) : Prop :=
  (item.head? = some '+' ∧ sameIgnoringCase (trim item.tail) id.toList = true) ∨
    (item.head? ≠ some '+' ∧ item.head? ≠ some '-' ∧ sameIgnoringCase item id.toList = true)

/-- An id that settings switch off, by their list or by the list of the custom rule set in use. -/
def ConfiguredOff (settings : Settings) (id : String) : Prop :=
  lists (settings.getList "linting.disabledRules" []) id = true ∨
    (settings.getStr "linting.ruleSet" "" ≠ "" ∧
      lists (settings.getList
        ("customRules." ++ settings.getStr "linting.ruleSet" "" ++ ".disabled") []) id = true)

/-- A rule that is off: an item switches it off, or the settings do and no item switches it on. -/
def Inactive (text : String) (settings : Settings) (id : String) : Prop :=
  (∃ item ∈ items text, SwitchesOff id item) ∨
    (ConfiguredOff settings id ∧ ¬ ∃ item ∈ items text, SwitchesOn id item)

/-- Whether an item switches a rule off can be told from its text. -/
instance (id : String) (item : List Char) : Decidable (SwitchesOff id item) :=
  inferInstanceAs (Decidable (_ ∧ _))

/-- Whether an item switches a rule on can be told from its text. -/
instance (id : String) (item : List Char) : Decidable (SwitchesOn id item) :=
  inferInstanceAs (Decidable ((_ ∧ _) ∨ (_ ∧ _ ∧ _)))

/-- Whether settings switch a rule off can be told from their document. -/
instance (settings : Settings) (id : String) : Decidable (ConfiguredOff settings id) :=
  inferInstanceAs (Decidable (_ ∨ (_ ∧ _)))

/-- Whether a rule is inactive can be told from the items and the settings. -/
instance (text : String) (settings : Settings) (id : String) :
    Decidable (Inactive text settings id) :=
  inferInstanceAs (Decidable ((∃ item ∈ items text, SwitchesOff id item) ∨
    (ConfiguredOff settings id ∧ ¬ ∃ item ∈ items text, SwitchesOn id item)))

variable {text id name : String} {item : List Char} {entries : List (List Char)} {on : Bool}
  {selection result : RuleSelection} {settings : Settings}

/-- The ids that a selection switches on, or those that it switches off. -/
def ids (selection : RuleSelection) (on : Bool) : List String :=
  if on then selection.enabled else selection.disabled

/-- An item that can be read is a sign and an id, or an id alone. -/
theorem itemOf?_cases (read : itemOf? item = some (on, name)) :
    ∃ body, name = uppered (String.ofList (trim body)) ∧
      ((on = false ∧ item = '-' :: body) ∨ (on = true ∧ item = '+' :: body) ∨
        (on = true ∧ item = body ∧ item.head? ≠ some '+' ∧ item.head? ≠ some '-')) := by
  unfold itemOf? at read
  split at read
  rename_i sign body parts
  dsimp only at read
  split_ifs at read
  obtain ⟨rfl, rfl⟩ := Prod.mk.inj (Option.some.inj read)
  refine ⟨body, rfl, ?_⟩
  split at parts
  · obtain ⟨rfl, rfl⟩ := Prod.mk.inj parts
    exact Or.inl ⟨rfl, rfl⟩
  · obtain ⟨rfl, rfl⟩ := Prod.mk.inj parts
    exact Or.inr (Or.inl ⟨rfl, rfl⟩)
  · rename_i other plain bare
    obtain ⟨rfl, rfl⟩ := Prod.mk.inj parts
    refine Or.inr (Or.inr ⟨rfl, rfl, ?_, ?_⟩)
    · intro starts
      obtain ⟨rest, rfl⟩ := List.head?_eq_some_iff.mp starts
      exact bare rest rfl
    · intro starts
      obtain ⟨rest, rfl⟩ := List.head?_eq_some_iff.mp starts
      exact plain rest rfl

/-- An item that was read switches off the rule that it names exactly when it has a hyphen. -/
theorem switchesOff_iff (read : itemOf? item = some (on, name)) :
    SwitchesOff id item ↔ on = false ∧ sameIgnoringCase name.toList id.toList = true := by
  obtain ⟨body, rfl, kind⟩ := itemOf?_cases read
  rw [Text.sameIgnoringCase_uppered]
  rcases kind with ⟨rfl, rfl⟩ | ⟨rfl, rfl⟩ | ⟨rfl, rfl, -, bare⟩
  · simp [SwitchesOff]
  · simp [SwitchesOff]
  · simp [SwitchesOff, bare]

/-- An item that was read switches on the rule that it names exactly when it has no hyphen. -/
theorem switchesOn_iff (read : itemOf? item = some (on, name)) (trimmed : trim item = item) :
    SwitchesOn id item ↔ on = true ∧ sameIgnoringCase name.toList id.toList = true := by
  obtain ⟨body, rfl, kind⟩ := itemOf?_cases read
  rw [Text.sameIgnoringCase_uppered]
  rcases kind with ⟨rfl, rfl⟩ | ⟨rfl, rfl⟩ | ⟨rfl, rfl, plus, hyphen⟩
  · simp [SwitchesOn]
  · simp [SwitchesOn]
  · simp [SwitchesOn, plus, hyphen, trimmed]

/-- Items are accepted when each of them can be read. -/
theorem addItems_ok_iff (selection : RuleSelection) (entries : List (List Char)) :
    (∃ result, selection.addItems entries = .ok result) ↔
      ∀ item ∈ entries, ∃ on name, itemOf? item = some (on, name) := by
  induction entries generalizing selection with
  | nil => simp [addItems]
  | cons item rest ih =>
    rw [List.forall_mem_cons, addItems]
    cases read : itemOf? item with
    | none => simp
    | some entry =>
      obtain ⟨on, name⟩ := entry
      cases on with
      | true => simpa using ih _
      | false => simpa using ih _

/-- Items that are accepted add their ids, and no others. -/
theorem mem_ids_of_addItems (accepted : selection.addItems entries = .ok result) (on : Bool)
    (name : String) :
    name ∈ result.ids on ↔
      name ∈ selection.ids on ∨ ∃ item ∈ entries, itemOf? item = some (on, name) := by
  induction entries generalizing selection with
  | nil =>
    obtain rfl := Except.ok.inj accepted
    simp
  | cons item rest ih =>
    rw [addItems] at accepted
    cases read : itemOf? item with
    | none =>
      rw [read] at accepted
      contradiction
    | some entry =>
      rw [read] at accepted
      obtain ⟨sign, added⟩ := entry
      rw [List.exists_mem_cons_iff, read]
      cases sign with
      | true =>
        rw [ih accepted]
        cases on <;> simp [ids, or_assoc, eq_comm]
      | false =>
        rw [ih accepted]
        cases on <;> simp [ids, or_assoc, eq_comm]

/-- An id is listed by an accepted selection when an item names it. -/
theorem lists_ids_iff (accepted : ofText text = .ok selection) (on : Bool) (id : String) :
    lists (selection.ids on) id = true ↔
      ∃ item ∈ items text, ∃ name, itemOf? item = some (on, name) ∧
        sameIgnoringCase name.toList id.toList = true := by
  have members : ∀ name, name ∈ selection.ids on ↔
      ∃ item ∈ items text, itemOf? item = some (on, name) := by
    intro name
    have added := mem_ids_of_addItems accepted on name
    have nothing : name ∉ empty.ids on := by cases on <;> exact List.not_mem_nil
    rw [added]
    exact or_iff_right nothing
  rw [lists, List.any_eq_true]
  constructor
  · rintro ⟨name, listed, same⟩
    obtain ⟨item, among, read⟩ := (members name).mp listed
    exact ⟨item, among, name, read, same⟩
  · rintro ⟨item, among, name, read, same⟩
    exact ⟨name, (members name).mpr ⟨item, among, read⟩, same⟩

/-- Every item of an accepted selection can be read, and it has no blanks around it. -/
theorem of_mem_items (accepted : ofText text = .ok selection) (listed : item ∈ items text) :
    (∃ on name, itemOf? item = some (on, name)) ∧ trim item = item := by
  have readable := (addItems_ok_iff empty (items text)).mp ⟨selection, accepted⟩
  refine ⟨readable item listed, ?_⟩
  obtain ⟨piece, -, rfl⟩ := List.mem_map.mp (List.mem_filter.mp listed).1
  exact Text.trim_trim piece

/-- The rules that a selection switches off are those of items that switch off. -/
theorem lists_disabled_iff (accepted : ofText text = .ok selection) :
    lists selection.disabled id = true ↔ ∃ item ∈ items text, SwitchesOff id item := by
  have listed := lists_ids_iff accepted false id
  rw [show selection.disabled = selection.ids false from rfl, listed]
  apply exists_congr
  intro item
  apply and_congr_right
  intro among
  obtain ⟨⟨on, name, read⟩, -⟩ := of_mem_items accepted among
  rw [switchesOff_iff read, read]
  simp

/-- The rules that a selection switches on are those of items that switch on. -/
theorem lists_enabled_iff (accepted : ofText text = .ok selection) :
    lists selection.enabled id = true ↔ ∃ item ∈ items text, SwitchesOn id item := by
  have listed := lists_ids_iff accepted true id
  rw [show selection.enabled = selection.ids true from rfl, listed]
  apply exists_congr
  intro item
  apply and_congr_right
  intro among
  obtain ⟨⟨on, name, read⟩, trimmed⟩ := of_mem_items accepted among
  rw [switchesOn_iff read trimmed, read]
  simp

/-- The rules that settings disable are those configured off. -/
theorem lists_disabledRules_iff :
    lists settings.disabledRules id = true ↔ ConfiguredOff settings id := by
  rw [Settings.disabledRules, ConfiguredOff]
  by_cases custom : settings.getStr "linting.ruleSet" "" = ""
  · simp [custom]
  · simp [custom, lists]

/-- The active rules are those that are not off. -/
theorem isActive_iff (accepted : ofText text = .ok selection) :
    selection.isActive settings.disabledRules id = true ↔ ¬ Inactive text settings id := by
  rw [isActive, Inactive, ← lists_disabled_iff accepted, ← lists_enabled_iff accepted,
    ← lists_disabledRules_iff]
  cases lists selection.disabled id <;> cases lists selection.enabled id <;> simp

/-- The items of a selection say which rules are off, whatever their order and number. -/
theorem inactive_congr {other : String} (same : ∀ item, item ∈ items other ↔ item ∈ items text) :
    Inactive other settings id ↔ Inactive text settings id := by
  simp only [Inactive, same]

/-- Selections with the same items are accepted together and leave the same rules active. -/
theorem rules_congr {other : String} (same : ∀ item, item ∈ items other ↔ item ∈ items text)
    (accepted : ofText text = .ok selection) (settings : Settings) :
    ∃ second, ofText other = .ok second ∧ second.rules settings = selection.rules settings := by
  have readable := (addItems_ok_iff empty (items text)).mp ⟨selection, accepted⟩
  obtain ⟨second, taken⟩ := (addItems_ok_iff empty (items other)).mpr
    fun item listed => readable item ((same item).mp listed)
  have active : ∀ id, second.isActive settings.disabledRules id =
      selection.isActive settings.disabledRules id := by
    intro id
    rw [Bool.eq_iff_iff, isActive_iff accepted, isActive_iff taken, inactive_congr same]
  refine ⟨second, taken, ?_⟩
  rw [rules, rules]
  simp only [active]

end RuleSelection

namespace Rule

open RuleSelection (Inactive items)

/-- What any rules find in a file is what each of them contributes, in order: its violations, or one
warning that it failed. With an accepted selection, the active built-in rules find what all built-in
rules find without the contributions of the rules that are off, which are the violations with their
ids. Selections with the same items have the same active rules. -/
theorem analyze_isolates {text : String} {selection : RuleSelection}
    (accepted : RuleSelection.ofText text = .ok selection) (rules : List Rule) (settings : Settings)
    (subject : Subject) :
    (∃ parts, List.Forall₂ (Contributes subject) rules parts ∧
        analyze rules subject = parts.flatten) ∧
      analyze (selection.rules settings) subject =
        (builtin.flatMap fun rule =>
          if Inactive text settings rule.id then [] else rule.outcome subject) ∧
      analyze (selection.rules settings) subject =
        (analyze builtin subject).filter (fun violation =>
          ¬ Inactive text settings violation.ruleId) ∧
      ∀ other, (∀ item, item ∈ items other ↔ item ∈ items text) →
        ∃ second, RuleSelection.ofText other = .ok second ∧
          second.rules settings = selection.rules settings := by
  have active : selection.rules settings =
      builtin.filter fun rule => ¬ Inactive text settings rule.id := by
    rw [RuleSelection.rules]
    apply List.filter_congr
    intro rule _
    rw [Bool.eq_iff_iff, RuleSelection.isActive_iff accepted, decide_eq_true_iff]
  refine ⟨analyze_eq_flatten subject rules, ?_, ?_, ?_⟩
  · rw [active, analyze_filter]
    simp
  · rw [active]
    exact (filter_analyze (fun id => ¬ Inactive text settings id) (List.Subset.refl _)).symm
  · intro other same
    exact RuleSelection.rules_congr same accepted settings

/-- A rule that breaks down on every file. -/
def breakingDown : Rule where
  id := "BREAKING_DOWN"
  category := Category.practice
  description := "Breaks down"
  check _ := .error (.crash (some "boom"))

/-- A rule that breaks down before the rule for syntax errors, and a selection that switches that
one off and another one on that settings switch off. -/
theorem analyze_isolates_breakdown :
    let text := " -syntax_error,, +MAX_LINE_LENGTH"
    let selection : RuleSelection := ⟨["MAX_LINE_LENGTH"], ["SYNTAX_ERROR"]⟩
    let settings : Settings := .layered (.object [("linting", .object [
      ("disabledRules", .strs ["max_line_length", "require_init"])])]) "."
    let subject := Subject.ofParsed Parsed.strayBracket settings
    RuleSelection.ofText text = .ok selection ∧
      Inactive text settings "SYNTAX_ERROR" ∧ ¬ Inactive text settings "MAX_LINE_LENGTH" ∧
      Inactive text settings "REQUIRE_INIT" ∧
      (∃ parts, List.Forall₂ (Contributes subject) [breakingDown, syntaxErrors] parts ∧
        analyze [breakingDown, syntaxErrors] subject = parts.flatten) ∧
      analyze (selection.rules settings) subject =
        (analyze builtin subject).filter (fun violation =>
          ¬ Inactive text settings violation.ruleId) := by
  intro text selection settings subject
  have accepted : RuleSelection.ofText text = .ok selection := by decide +kernel
  have off : Inactive text settings "SYNTAX_ERROR" := by decide +kernel
  have on : ¬ Inactive text settings "MAX_LINE_LENGTH" := by decide +kernel
  have configured : Inactive text settings "REQUIRE_INIT" := by decide +kernel
  obtain ⟨parts, -, selected, -⟩ :=
    analyze_isolates accepted [breakingDown, syntaxErrors] settings subject
  exact ⟨accepted, off, on, configured, parts, selected⟩

end Rule

end CfmlTidy
