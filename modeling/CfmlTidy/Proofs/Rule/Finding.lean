import Mathlib
import CfmlTidy.Proofs.Snippet
import CfmlTidy.Proofs.Source.Function
import CfmlTidy.Proofs.Source.Mask
import CfmlTidy.Rule.Registry

/-!
# What rules find

A rule is mild when whatever it finds is no error and lies on a line of the file, or on the first
line where the file has none. All built-in rules but the one for syntax errors are mild. They find
places in three ways: they take the first place of the file, they number its lines, or they take the
offset of a character that is not blank, in the text or in its mask.
-/

namespace CfmlTidy

open CfmlTidy.Text (Pattern VisibleAt isBlank splitLines)

/-- A violation one column wide, on one of so many lines or on the first. -/
structure Violation.PointsInto (lines : Nat) (violation : Violation) : Prop where
  /-- Lines are counted from one. -/
  line_pos : 1 ≤ violation.line
  /-- The line exists, or it is the first. -/
  line_le : violation.line ≤ max 1 lines
  /-- Columns are counted from one. -/
  column_pos : 1 ≤ violation.column
  /-- It ends on its line. -/
  endLine_eq : violation.endLine = violation.line
  /-- It is one column wide. -/
  endColumn_eq : violation.endColumn = violation.column + 1

namespace Finding

variable {content : List Char}

/-- A finding that is no error, on a line of a content or on the first. -/
structure Mild (content : List Char) (finding : Finding) : Prop where
  /-- It is no error. -/
  severity_ne : finding.severity ≠ .error
  /-- Its line exists, or it is the first. -/
  line_le : finding.place.line ≤ max 1 (splitLines content).length

/-- Findings that are all mild. -/
def AllMild (content : List Char) (findings : List Finding) : Prop :=
  ∀ finding ∈ findings, finding.Mild content

/-- A warning on a line of the content is mild. -/
theorem mild_warning {place : Text.Position} (message : String)
    (within : place.line ≤ max 1 (splitLines content).length) :
    (Finding.warning place message).Mild content := ⟨by simp [warning], within⟩

/-- A remark on a line of the content is mild. -/
theorem mild_info {place : Text.Position} (message : String)
    (within : place.line ≤ max 1 (splitLines content).length) :
    (Finding.info place message).Mild content := ⟨by simp [info], within⟩

namespace AllMild

/-- No findings are mild. -/
theorem nil : AllMild content [] := fun _ none => absurd none List.not_mem_nil

/-- Findings in a row are mild when both parts are. -/
theorem append {front back : List Finding} (early : AllMild content front)
    (late : AllMild content back) : AllMild content (front ++ back) :=
  fun finding listed => (List.mem_append.mp listed).elim (early finding) (late finding)

/-- Findings by a condition are mild when they are mild either way. -/
theorem ite {condition : Prop} [Decidable condition] {front back : List Finding}
    (holds : AllMild content front) (fails : AllMild content back) :
    AllMild content (if condition then front else back) := by
  split_ifs
  · exact holds
  · exact fails

/-- A warning at the first place. -/
theorem firstWarning (message : String) : AllMild content [.warning .start message] :=
  List.forall_mem_singleton.mpr (mild_warning message (le_max_left _ _))

/-- A piece of information at the first place. -/
theorem firstInfo (message : String) : AllMild content [.info .start message] :=
  List.forall_mem_singleton.mpr (mild_info message (le_max_left _ _))

/-- Findings made of items one by one. -/
theorem filterMap {α : Type} {items : List α} {find : α → Option Finding}
    (each : ∀ item ∈ items, ∀ finding, find item = some finding → finding.Mild content) :
    AllMild content (items.filterMap find) := by
  intro finding listed
  obtain ⟨item, among, found⟩ := List.mem_filterMap.mp listed
  exact each item among finding found

end AllMild

end Finding

open Finding (AllMild)

/-- A rule whose violations are no errors and lie on lines of the file. -/
def Rule.Mild (rule : Rule) : Prop :=
  ∀ parsed settings, ∀ violation ∈ rule.outcome (.ofParsed parsed settings),
    violation.severity ≠ .error ∧ violation.PointsInto (splitLines parsed.content).length

namespace Subject

variable {parsed : Parsed} {settings : Settings} {offset : Nat}

/-- The place of a character that is not blank lies on a line of the file. -/
theorem line_place_le (there : VisibleAt parsed.content offset) :
    ((ofParsed parsed settings).place offset).line ≤ max 1 (splitLines parsed.content).length :=
  there.line_le.trans (le_max_right _ _)

/-- A character of the mask that is not blank lies on a line of the file. -/
theorem line_masked_le (there : VisibleAt (ofParsed parsed settings).masked offset) :
    ((ofParsed parsed settings).place offset).line ≤ max 1 (splitLines parsed.content).length :=
  line_place_le (Source.visibleAt_of_mask there)

/-- Where a match in the mask starts with a name, a line of the file is. -/
theorem line_start_le {pattern : Pattern} {found : Pattern.Match}
    (listed : found ∈ pattern.findAll (ofParsed parsed settings).masked)
    (starts : pattern.StartsWith Pattern.isNameStart) :
    ((ofParsed parsed settings).place found.start.offset).line ≤
      max 1 (splitLines parsed.content).length := by
  obtain ⟨c, rest, named, reads⟩ := Pattern.readsAt_start listed starts
  exact line_masked_le ⟨c, rest, Pattern.isBlank_of_isNameStart named, reads⟩

/-- Where a group in the mask starts with a name, a line of the file is. -/
theorem line_group_le {pattern : Pattern} {found : Pattern.Match} {number : Nat}
    {capture : Text.Capture} (listed : found ∈ pattern.findAll (ofParsed parsed settings).masked)
    (recorded : found.group? number = some capture)
    (starts : ∀ body, (number, body) ∈ pattern.groups → body.StartsWith Pattern.isNameStart) :
    ((ofParsed parsed settings).place capture.start).line ≤
      max 1 (splitLines parsed.content).length := by
  obtain ⟨c, rest, named, reads⟩ := Pattern.readsAt_group listed recorded starts
  exact line_masked_le ⟨c, rest, Pattern.isBlank_of_isNameStart named, reads⟩

/-- Where a group in the mask is a name, a line of the file is. -/
theorem line_name_le {pattern : Pattern} {found : Pattern.Match} {number : Nat}
    {capture : Text.Capture} (listed : found ∈ pattern.findAll (ofParsed parsed settings).masked)
    (recorded : found.group? number = some capture)
    (only : ∀ body, (number, body) ∈ pattern.groups → body = .name) :
    ((ofParsed parsed settings).place capture.start).line ≤
      max 1 (splitLines parsed.content).length := by
  apply line_group_le listed recorded
  intro body grouped
  rw [only body grouped]
  exact Pattern.startsWith_name

end Subject

namespace Rule

/-- A violation of a rule given by its findings points where the finding is. -/
theorem pointsInto_ofFindings {id category description : String} {find : Subject → List Finding}
    {subject : Subject} {lines : Nat}
    (within : ∀ finding ∈ find subject, finding.place.line ≤ max 1 lines) {violation : Violation}
    (listed : violation ∈ (ofFindings id category description find).outcome subject) :
    violation.PointsInto lines := by
  obtain ⟨finding, found, rfl⟩ := List.mem_map.mp listed
  have line_le := max_le (within finding found) (le_max_left 1 lines)
  exact ⟨le_max_right _ _, line_le, le_max_right _ _, rfl, rfl⟩

/-- A rule is mild when its findings are. -/
theorem mild_ofFindings {id category description : String} {find : Subject → List Finding}
    (mild : ∀ parsed settings, AllMild parsed.content (find (.ofParsed parsed settings))) :
    Mild (ofFindings id category description find) := by
  intro parsed settings violation listed
  have points := pointsInto_ofFindings
    (fun finding found => (mild parsed settings finding found).line_le) listed
  obtain ⟨finding, found, rfl⟩ := List.mem_map.mp listed
  exact ⟨(mild parsed settings finding found).severity_ne, points⟩

section Lines

/-- Numbered lines have the numbers of lines. -/
theorem line_of_mem_numbered {content : List Char} {entry : Nat × List Char}
    (listed : entry ∈ Snippet.numbered 1 (splitLines content)) :
    entry.1 ≤ max 1 (splitLines content).length := by
  obtain ⟨first, found⟩ := Snippet.of_mem_numbered listed
  have within := (List.getElem?_eq_some_iff.mp found).1
  omega

/-- The rule on blanks at line ends is mild. -/
theorem mild_trailingWhitespace : Mild trailingWhitespace := by
  apply mild_ofFindings
  intro parsed settings
  refine .ite (.filterMap ?_) .nil
  intro entry numbered finding found
  split_ifs at found
  obtain rfl := Option.some.inj found
  exact ⟨by simp [Finding.warning], line_of_mem_numbered numbered⟩

/-- Findings of blank lines lie on the lines that are looked at. -/
theorem of_mem_emptyFindings {limit number run : Nat} {lines : List (List Char)}
    {finding : Finding} (listed : finding ∈ emptyFindings limit number run lines) :
    finding.severity = .info ∧ finding.place.line < number + lines.length := by
  induction lines generalizing number run with
  | nil => contradiction
  | cons line rest ih =>
    rw [emptyFindings] at listed
    rw [List.length_cons]
    by_cases blank : Text.allBlank line = true
    · rw [if_pos blank] at listed
      obtain ⟨info, within⟩ := ih listed
      exact ⟨info, by omega⟩
    · rw [if_neg blank] at listed
      rcases List.mem_append.mp listed with here | later
      · split_ifs at here
        · rw [List.mem_singleton.mp here]
          exact ⟨rfl, by simp [Finding.info]⟩
        · contradiction
      · obtain ⟨info, within⟩ := ih later
        exact ⟨info, by omega⟩

/-- The rule on blank lines is mild. -/
theorem mild_excessiveEmptyLines : Mild excessiveEmptyLines := by
  apply mild_ofFindings
  intro parsed settings finding listed
  obtain ⟨info, within⟩ := of_mem_emptyFindings listed
  refine ⟨by simp [info], ?_⟩
  change finding.place.line < 1 + (splitLines parsed.content).length at within
  omega

/-- The rule on the length of lines is mild. -/
theorem mild_maxLineLength : Mild maxLineLength := by
  apply mild_ofFindings
  intro parsed settings
  split
  · exact .nil
  · refine .filterMap ?_
    intro entry numbered finding found
    dsimp only at found
    split_ifs at found
    obtain rfl := Option.some.inj found
    exact Finding.mild_warning _ (line_of_mem_numbered numbered)

end Lines

section FirstPlace

/-- The rule on names of files is mild. -/
theorem mild_fileNaming : Mild fileNaming := by
  apply mild_ofFindings
  intro parsed settings
  have component (stem : String) : AllMild parsed.content (componentFileFindings stem) :=
    ((AllMild.ite .nil (.firstWarning _)).append (.ite (.firstWarning _) .nil)).append
      (.ite (.firstWarning _) .nil)
  have template (convention stem : String) :
      AllMild parsed.content (templateFileFindings convention stem) :=
    (AllMild.ite (.firstWarning _) .nil).append (.ite (.firstInfo _) .nil)
  split
  · exact component _
  · exact template _ _
  · exact template _ _
  · exact .nil

/-- The rule on names of abstract components is mild. -/
theorem mild_abstractNaming : Mild abstractNaming := by
  apply mild_ofFindings
  intro parsed settings
  refine .ite .nil ?_
  intro finding listed
  obtain ⟨reason, -, rfl⟩ := List.mem_map.mp listed
  exact Finding.mild_info _ (le_max_left _ _)

/-- The rule on the length of files is mild. -/
theorem mild_maxFileLength : Mild maxFileLength := by
  apply mild_ofFindings
  intro parsed settings
  split
  · exact .nil
  · exact .ite (.firstWarning _) .nil

/-- The rule on constructors is mild. -/
theorem mild_requireInit : Mild requireInit :=
  mild_ofFindings fun _ _ => .ite .nil (.firstWarning _)

/-- The rule on accessors is mild. -/
theorem mild_useAccessors : Mild useAccessors :=
  mild_ofFindings fun _ _ => .ite .nil (.ite .nil (.firstInfo _))

end FirstPlace

section Functions

variable {parsed : Parsed} {settings : Settings}

/-- The rule on names of functions is mild. -/
theorem mild_functionNaming : Mild functionNaming := by
  apply mild_ofFindings
  intro parsed settings
  refine .ite .nil (.filterMap ?_)
  intro function listed finding found
  split_ifs at found
  obtain rfl := Option.some.inj found
  have there := (Source.visibleAt_of_mem_functionsOf listed).2.1
  exact Finding.mild_warning _ (Subject.line_masked_le there)

/-- The rule on return types is mild. -/
theorem mild_requireReturnTypes : Mild requireReturnTypes := by
  apply mild_ofFindings
  intro parsed settings
  refine .ite .nil (.filterMap ?_)
  intro function listed finding found
  split_ifs at found
  obtain rfl := Option.some.inj found
  have there := (Source.visibleAt_of_mem_functionsOf listed).1
  exact Finding.mild_warning _ (Subject.line_masked_le there)

/-- The rule on the length of functions is mild. -/
theorem mild_maxFunctionLength : Mild maxFunctionLength := by
  apply mild_ofFindings
  intro parsed settings
  split
  · exact .nil
  · refine .filterMap ?_
    intro function listed finding found
    obtain ⟨range, -, found⟩ := Option.bind_eq_some_iff.mp found
    obtain ⟨body, -, found⟩ := Option.bind_eq_some_iff.mp found
    split_ifs at found
    obtain rfl := Option.some.inj found
    have there := (Source.visibleAt_of_mem_functionsOf listed).1
    exact Finding.mild_warning _ (Subject.line_masked_le there)

/-- The place of a parameter lies on a line of the file. -/
theorem line_param_le {param : Source.Param}
    (listed : param ∈ (Subject.ofParsed parsed settings).functions.flatMap (·.params)) :
    ((Subject.ofParsed parsed settings).place param.offset).line ≤
      max 1 (splitLines parsed.content).length := by
  obtain ⟨function, among, declared⟩ := List.mem_flatMap.mp listed
  have there := (Source.visibleAt_of_mem_functionsOf among).2.2 param declared
  exact Subject.line_masked_le there

/-- The rule on types of arguments is mild. -/
theorem mild_requireArgumentTypes : Mild requireArgumentTypes := by
  apply mild_ofFindings
  intro parsed settings
  refine .ite .nil (.filterMap ?_)
  intro param listed finding found
  split_ifs at found
  obtain rfl := Option.some.inj found
  exact Finding.mild_warning _ (line_param_le listed)

end Functions

section Matches

/-- The rule on names of variables is mild. -/
theorem mild_variableNaming : Mild variableNaming := by
  apply mild_ofFindings
  intro parsed settings
  refine .ite .nil (.append (.filterMap ?_) (.filterMap ?_))
  · intro declaration listed finding found
    obtain ⟨name, recorded, found⟩ := Option.bind_eq_some_iff.mp found
    split_ifs at found
    obtain rfl := Option.some.inj found
    refine Finding.mild_warning _ (Subject.line_name_le listed recorded ?_)
    intro body grouped
    simpa [variableDeclaration] using grouped
  · intro param listed finding found
    split_ifs at found
    obtain rfl := Option.some.inj found
    exact Finding.mild_warning _ (line_param_le listed)

/-- The rule on names of constants is mild. -/
theorem mild_constantNaming : Mild constantNaming := by
  apply mild_ofFindings
  intro parsed settings
  refine .ite .nil (.filterMap ?_)
  intro assignment listed finding found
  obtain ⟨name, recorded, found⟩ := Option.bind_eq_some_iff.mp found
  split_ifs at found
  obtain rfl := Option.some.inj found
  refine Finding.mild_warning _ (Subject.line_name_le listed recorded ?_)
  intro body grouped
  simpa [literalAssignment] using grouped

/-- The rule on names of interfaces is mild. -/
theorem mild_interfaceNaming : Mild interfaceNaming := by
  apply mild_ofFindings
  intro parsed settings
  refine .ite .nil (.append (.filterMap ?_) (.ite (.firstInfo _) .nil))
  intro declaration listed finding found
  obtain ⟨name, recorded, found⟩ := Option.bind_eq_some_iff.mp found
  split_ifs at found
  obtain rfl := Option.some.inj found
  refine Finding.mild_info _ (Subject.line_name_le listed recorded ?_)
  intro body grouped
  simpa [interfaceDeclaration] using grouped

/-- The rule on the place of curly braces is mild. -/
theorem mild_curlyBraceStyle : Mild curlyBraceStyle := by
  apply mild_ofFindings
  intro parsed settings
  refine .ite .nil (.filterMap ?_)
  intro statement listed finding found
  obtain ⟨keyword, recorded, rfl⟩ := Option.map_eq_some_iff.mp found
  refine Finding.mild_info _ (Subject.line_group_le listed recorded ?_)
  intro body grouped
  obtain rfl : body = .oneOf [.word "if", .word "else", .word "for", .word "while",
      .word "function", .word "component", .word "try", .word "catch"] := by
    simpa [braceOnNextLine] using grouped
  exact Pattern.startsWith_words
    ["if", "else", "for", "while", "function", "component", "try", "catch"] (by decide)

/-- The rule on missing curly braces is mild. The edge of a word takes no character, so a match
starts with its keyword. -/
theorem mild_requireCurlyBraces : Mild requireCurlyBraces := by
  apply mild_ofFindings
  intro parsed settings
  refine .ite .nil (.filterMap ?_)
  intro control listed finding found
  obtain ⟨statement, -, found⟩ := Option.bind_eq_some_iff.mp found
  split_ifs at found
  obtain rfl := Option.some.inj found
  refine Finding.mild_warning _ (Subject.line_start_le listed ?_)
  have keyword := Pattern.startsWith_words ["if", "else", "for", "while", "try", "catch"]
    (by decide)
  exact Or.inr ⟨rfl, Or.inl keyword⟩

/-- The rule on names of components is mild. -/
theorem mild_componentNaming : Mild componentNaming := by
  apply mild_ofFindings
  intro parsed settings
  refine .ite .nil (.append (.ite .nil (.firstWarning _)) (.filterMap ?_))
  intro declaration listed finding found
  obtain ⟨attributes, -, found⟩ := Option.bind_eq_some_iff.mp found
  obtain ⟨named, -, found⟩ := Option.bind_eq_some_iff.mp found
  obtain ⟨declared, -, found⟩ := Option.bind_eq_some_iff.mp found
  split_ifs at found
  obtain rfl := Option.some.inj found
  refine Finding.mild_warning _ (Subject.line_place_le ?_)
  have includes : componentHead.Includes Pattern.isNameStart := by
    refine Pattern.includes_all (.word "component") (by simp) ?_
    exact Pattern.includes_of_startsWith (Pattern.startsWith_word (by decide))
  exact Pattern.readsAt_afterLead isBlank listed includes
    fun c starts => Pattern.isBlank_of_isNameStart starts

end Matches

/-- Every built-in rule but the one for syntax errors is mild. -/
theorem mild_of_mem_builtin {rule : Rule} (listed : rule ∈ builtin.tail) : Mild rule := by
  simp only [builtin, List.tail_cons, List.mem_cons, List.not_mem_nil, or_false] at listed
  rcases listed with rfl | rfl | rfl | rfl | rfl | rfl | rfl | rfl | rfl | rfl | rfl | rfl | rfl |
    rfl | rfl | rfl | rfl | rfl
  · exact mild_trailingWhitespace
  · exact mild_excessiveEmptyLines
  · exact mild_componentNaming
  · exact mild_functionNaming
  · exact mild_variableNaming
  · exact mild_constantNaming
  · exact mild_fileNaming
  · exact mild_interfaceNaming
  · exact mild_abstractNaming
  · exact mild_requireCurlyBraces
  · exact mild_maxFunctionLength
  · exact mild_maxLineLength
  · exact mild_maxFileLength
  · exact mild_requireInit
  · exact mild_requireReturnTypes
  · exact mild_requireArgumentTypes
  · exact mild_useAccessors
  · exact mild_curlyBraceStyle

end Rule

end CfmlTidy
