import Mathlib
import CfmlTidy.Parse.Backend
import CfmlTidy.Proofs.Parse.Fault

/-!
# Issues of parsed files

Whichever parser reads a file, its errors and its soundness say the same as the issues that are
errors, and every issue has a place counted from one. Without a script engine every issue lies in
the file.
-/

namespace CfmlTidy

/-- Whether an issue is an error. -/
def Issue.isError (issue : Issue) : Bool := issue.severity == .error

namespace Parsed

/-- What is common to the answers of all parsers for a content. -/
structure Answers (content : List Char) (parsed : Parsed) : Prop where
  /-- The content is kept. -/
  content_eq : parsed.content = content
  /-- The errors are the issues that are errors, with their places. -/
  errors_eq : parsed.errors = (parsed.issues.filter Issue.isError).map Issue.summary
  /-- A file is sound when no issue is an error. -/
  success_eq : parsed.success = (parsed.issues.filter Issue.isError).isEmpty
  /-- Lines and columns of issues are counted from one. -/
  counted : ∀ issue ∈ parsed.issues, 1 ≤ issue.line ∧ 1 ≤ issue.column

/-- A content with counted issues answers for itself. -/
theorem answers_withIssues (path : String) (content : List Char) {issues : List Issue}
    (counted : ∀ issue ∈ issues, 1 ≤ issue.line ∧ 1 ≤ issue.column) :
    Answers content ((ofContent path content true).withIssues issues) where
  content_eq := rfl
  errors_eq := rfl
  success_eq := rfl
  counted := counted

/-- Comments do not matter. -/
theorem Answers.withComments {content : List Char} {parsed : Parsed}
    (answers : Answers content parsed) (comments : List Comment) :
    Answers content { parsed with comments := comments } :=
  ⟨answers.content_eq, answers.errors_eq, answers.success_eq, answers.counted⟩

/-- A component that closes a bracket on its second line and opens none. -/
def strayBracket : Parsed where
  path := "page.cfc"
  content := ['x', ';', '\n', '\x7d']
  success := false
  errors := ["Unexpected '\x7d' at line 2, column 1"]
  issues := [.syntaxError ⟨2, 1⟩ "Unexpected '\x7d'"]
  comments := []

end Parsed

/-- An issue at a place is counted from one. -/
theorem Issue.counted_located (severity : Severity) (place : Text.Position) (message : String)
    (rule : Option String) :
    1 ≤ (located severity place message rule).line ∧
      1 ≤ (located severity place message rule).column :=
  ⟨le_max_right place.line 1, le_max_right place.column 1⟩

/-- An issue of a structural reading is a fault. -/
theorem Script.fault_of_issue? {content : List Char} {event : Script.Event} {issue : Issue}
    (told : Script.issue? content event = some issue) :
    ∃ offset fault, event = .fault offset fault ∧
      issue = .syntaxError (Text.positionAt content offset) (fault.message content) := by
  cases event with
  | comment => contradiction
  | fault offset fault => exact ⟨offset, fault, rfl, (Option.some.inj told).symm⟩

/-- The checks that stand in for a script engine tell of the first place of a file. -/
theorem Validation.place_of_mem_guess {content : List Char} {issue : Issue}
    (listed : issue ∈ Validation.guess content) : issue.line = 1 ∧ issue.column = 1 := by
  unfold Validation.guess at listed
  split at listed
  · rw [List.mem_singleton.mp listed]
    exact ⟨rfl, rfl⟩
  · simp only [List.mem_append, List.mem_ite_nil_right, List.mem_singleton] at listed
    rcases listed with (⟨-, rfl⟩ | ⟨-, rfl⟩) | ⟨-, rfl⟩ <;> exact ⟨rfl, rfl⟩

namespace Backend

variable {backend : Backend} {path : String} {content : List Char} {parsed : Parsed}

/-- The issues that a parser can find in a content. -/
inductive Finds (script : Option ScriptEngine) (path : String) (content : List Char) :
    Issue → Prop where
  /-- A fault of the structure. -/
  | fault {offset : Nat} {fault : Script.Fault}
    (met : .fault offset fault ∈ Script.events path content) :
    Finds script path content
      (.syntaxError (Text.positionAt content offset) (fault.message content))
  /-- What is wrong at first sight. -/
  | guessed {issue : Issue} (listed : issue ∈ Validation.guess content) :
    Finds script path content issue
  /-- An error that a script engine tells. -/
  | told {error : EngineError} (present : script ≠ none) :
    Finds script path content (Validation.issueOf error)

/-- A parser that answers has attached issues that it can find, and comments, to the content that it
was given. -/
theorem exists_issues_of_parse {script : Option ScriptEngine}
    (read : backend.parse script path content = .ok parsed) :
    ∃ issues comments, (∀ issue ∈ issues, Finds script path content issue) ∧
      parsed = { (Parsed.ofContent path content true).withIssues issues with
        comments := comments } := by
  cases backend with
  | structural =>
    change Script.parse path content = .ok parsed at read
    rw [Script.parse] at read
    split at read
    · contradiction
    · refine ⟨_, _, fun issue listed => ?_, (Except.ok.inj read).symm⟩
      obtain ⟨event, met, told⟩ := List.mem_filterMap.mp listed
      obtain ⟨offset, fault, rfl, rfl⟩ := Script.fault_of_issue? told
      exact Finds.fault met
  | engine =>
    change Validation.parse script path content = .ok parsed at read
    unfold Validation.parse at read
    split at read
    · exact ⟨_, [], fun _ listed => Finds.guessed listed, (Except.ok.inj read).symm⟩
    · split at read
      · contradiction
      · refine ⟨_, [], fun issue listed => ?_, (Except.ok.inj read).symm⟩
        obtain ⟨error, -, rfl⟩ := List.mem_map.mp listed
        exact Finds.told (Option.some_ne_none _)
  | permissive => exact ⟨[], [], by simp, (Except.ok.inj read).symm⟩

/-- Lines and columns of what parsers find are counted from one. -/
theorem Finds.counted {script : Option ScriptEngine} {issue : Issue}
    (found : Finds script path content issue) : 1 ≤ issue.line ∧ 1 ≤ issue.column := by
  cases found with
  | fault met => exact Issue.counted_located _ _ _ _
  | guessed listed =>
    obtain ⟨line, column⟩ := Validation.place_of_mem_guess listed
    exact ⟨line.ge, column.ge⟩
  | told present => exact Issue.counted_located _ _ _ _

/-- Without a script engine, what parsers find lies on a line of the file, or on the first line. -/
theorem Finds.line_le {issue : Issue} (found : Finds none path content issue) :
    issue.line ≤ max 1 (Text.splitLines content).length := by
  cases found with
  | fault met =>
    have within := (Script.visibleAt_of_mem_events met).line_le
    exact max_le (within.trans (le_max_right _ _)) (le_max_left _ _)
  | guessed listed =>
    rw [(Validation.place_of_mem_guess listed).1]
    exact le_max_left _ _
  | told present => contradiction

/-- A parser that answers has read the file it was given. -/
theorem path_of_parse {script : Option ScriptEngine}
    (read : backend.parse script path content = .ok parsed) : parsed.path = path := by
  obtain ⟨issues, comments, -, rfl⟩ := exists_issues_of_parse read
  rfl

/-- Every parser that answers keeps what is common to all answers. -/
theorem answers_of_parse {script : Option ScriptEngine}
    (read : backend.parse script path content = .ok parsed) : parsed.Answers content := by
  obtain ⟨issues, comments, found, rfl⟩ := exists_issues_of_parse read
  have counted : ∀ issue ∈ issues, 1 ≤ issue.line ∧ 1 ≤ issue.column :=
    fun issue listed => (found issue listed).counted
  exact (Parsed.answers_withIssues path content counted).withComments comments

/-- Without a script engine, every issue lies on a line of the file, or on the first line. -/
theorem line_of_mem_issues (read : backend.parse none path content = .ok parsed) {issue : Issue}
    (listed : issue ∈ parsed.issues) : issue.line ≤ max 1 (Text.splitLines content).length := by
  obtain ⟨issues, comments, found, rfl⟩ := exists_issues_of_parse read
  exact (found issue listed).line_le

end Backend

end CfmlTidy
