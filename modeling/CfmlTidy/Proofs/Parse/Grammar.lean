import Mathlib
import CfmlTidy.Parse.Structural
import CfmlTidy.Proofs.Parse.Token
import CfmlTidy.Proofs.Source.Nesting

/-!
# What structural reading accepts

A script source is accepted exactly when it can be read as tokens to its end and the brackets that
the tokens leave are nested. The balancing of brackets goes on after a fault, so what is shown of it
is that it meets no fault exactly when the stack of open brackets is closed.
-/

namespace CfmlTidy.Script

open CfmlTidy.Source (Nested closes closerOf?)

/-- Script source that can be read as tokens to its end and whose brackets are nested. -/
def Balanced (text : List Char) : Prop := ∃ word, Reads text word ∧ Nested word

/-- The word of the brackets of lexemes. -/
def wordOf (lexemes : List Placed) : List Char := lexemes.flatMap (·.lexeme.word)

/-- Lexemes of which none is open. -/
def AllClosed (lexemes : List Placed) : Prop := ∀ placed ∈ lexemes, placed.lexeme.isOpen = false

section Reading

variable {text word : List Char}

/-- What is read as tokens has closed lexemes only, and they leave the same word. -/
theorem Reads.scan (reads : Reads text word) (offset : Nat) :
    AllClosed (Script.scan offset text []) ∧ wordOf (Script.scan offset text []) = word := by
  induction reads generalizing offset with
  | done => simp [Script.scan, AllClosed, wordOf]
  | token first _ ih =>
    obtain ⟨lexeme, closed, leaves, -, lexed⟩ := scan_token offset first
    obtain ⟨later, words⟩ := ih (offset + Text.byteLength _)
    rw [lexed]
    refine ⟨List.forall_mem_cons.mpr ⟨closed, later⟩, ?_⟩
    rw [wordOf, List.flatMap_cons, leaves, ← words]
    rfl

/-- A text whose lexemes are all closed is read as tokens. -/
theorem reads_of_closed (offset : Nat) (closed : AllClosed (scan offset text [])) :
    Reads text (wordOf (scan offset text [])) := by
  induction offset, text using scan_induction with
  | ended offset =>
    rw [Script.scan]
    exact Reads.done
  | opened offset text lexeme isOpen lexed =>
    have contrary := closed ⟨offset, lexeme⟩ (by simp [lexed])
    exact absurd (contrary.symm.trans isOpen) Bool.false_ne_true
  | token offset spelled after word first ih =>
    obtain ⟨lexeme, -, leaves, -, lexed⟩ := scan_token offset first
    rw [lexed] at closed ⊢
    have later := ih (List.forall_mem_cons.mp closed).2
    rw [wordOf, List.flatMap_cons, leaves]
    exact Reads.token first later

/-- A text is read as tokens exactly when its lexemes are closed, and the word is theirs. -/
theorem reads_iff (offset : Nat) :
    Reads text word ↔
      AllClosed (scan offset text []) ∧ wordOf (scan offset text []) = word := by
  constructor
  · exact fun reads => reads.scan offset
  · rintro ⟨closed, rfl⟩
    exact reads_of_closed offset closed

end Reading

section Balancing

/-- Whether an event is a fault. -/
def Event.isFault : Event → Bool
  | .fault .. => true
  | .comment .. => false

/-- Events of which none is a fault. -/
def Quiet (met : List Event) : Prop := ∀ event ∈ met, event.isFault = false

/-- Events are quiet when the first is no fault and the others are quiet. -/
theorem quiet_cons {event : Event} {met : List Event} :
    Quiet (event :: met) ↔ event.isFault = false ∧ Quiet met := List.forall_mem_cons

/-- Lexemes are closed when the first is closed and the others are. -/
theorem allClosed_cons {placed : Placed} {lexemes : List Placed} :
    AllClosed (placed :: lexemes) ↔ placed.lexeme.isOpen = false ∧ AllClosed lexemes :=
  List.forall_mem_cons

/-- The word of lexemes starts with the brackets of the first. -/
theorem wordOf_cons (placed : Placed) (lexemes : List Placed) :
    wordOf (placed :: lexemes) = placed.lexeme.word ++ wordOf lexemes := rfl

/-- Balancing meets no fault exactly when every lexeme is closed and the brackets close the open
ones. A bracket that does not match is a fault, whatever is met after it. -/
theorem quiet_balance_iff {stack : List (Char × Nat)} {lexemes : List Placed} :
    Quiet (balance stack lexemes) ↔
      AllClosed lexemes ∧ closes (stack.map Prod.fst) (wordOf lexemes) = true := by
  induction lexemes generalizing stack with
  | nil =>
    cases stack with
    | nil => simp [balance, Quiet, AllClosed, wordOf, closes]
    | cons opened outer => simp [balance, Quiet, AllClosed, wordOf, closes, Event.isFault]
  | cons placed rest ih =>
    obtain ⟨offset, lexeme⟩ := placed
    rw [allClosed_cons, wordOf_cons]
    cases lexeme with
    | comment kind body =>
      rw [balance, quiet_cons, ih]
      simp [commentEvent, Event.isFault, Lexeme.isOpen, Lexeme.word]
    | openComment kind =>
      rw [balance, quiet_cons]
      simp [Event.isFault, Lexeme.isOpen]
    | openLiteral =>
      rw [balance, quiet_cons]
      simp [Event.isFault, Lexeme.isOpen]
    | literal text =>
      rw [balance, ih]
      simp [Lexeme.isOpen, Lexeme.word]
    | plain c =>
      rw [balance, ih]
      simp [Lexeme.isOpen, Lexeme.word]
    | bracket c =>
      simp only [Lexeme.isOpen, Lexeme.word, List.singleton_append, true_and]
      cases partner : closerOf? c with
      | some closing =>
        simp only [balance, partner, Source.closes_opening partner]
        exact ih
      | none =>
        cases stack with
        | nil =>
          simp only [balance, partner, quiet_cons, Event.isFault, closes, List.map_nil]
          simp
        | cons opened outer =>
          obtain ⟨opening, openedAt⟩ := opened
          by_cases matched : closerOf? opening = some c
          · simp only [balance, partner, if_pos matched, List.map_cons,
              Source.closes_closing matched]
            exact ih
          · simp [balance, partner, matched, quiet_cons, Event.isFault, closes]

end Balancing

section Parsing

variable {path : String} {content : List Char}

/-- A script source is met without a fault exactly when it is balanced. -/
theorem quiet_events_iff (script : isScriptSource path content = true) :
    Quiet (events path content) ↔ Balanced content := by
  have read : events path content = balance [] (scan 0 content []) := if_pos script
  rw [read, quiet_balance_iff, List.map_nil, ← Source.nested_iff_closes]
  constructor
  · rintro ⟨closed, nested⟩
    exact ⟨_, (reads_iff 0).mpr ⟨closed, rfl⟩, nested⟩
  · rintro ⟨word, reads, nested⟩
    obtain ⟨closed, rfl⟩ := (reads_iff 0).mp reads
    exact ⟨closed, nested⟩

/-- No null character is found exactly in contents without one. -/
theorem nullOffset?_eq_none_iff : nullOffset? content = none ↔ '\x00' ∉ content := by
  induction content with
  | nil => simp [nullOffset?]
  | cons c rest ih =>
    by_cases null : c = '\x00'
    · simp [nullOffset?, null]
    · simp [nullOffset?, null, ih, Ne.symm null]

/-- Every issue of a file is an error, so a file is sound exactly when nothing is found in it. -/
theorem parse_of_text (path : String) (text : '\x00' ∉ content) :
    ∃ parsed, parse path content = .ok parsed ∧
      (parsed.success = true ↔ Quiet (events path content)) ∧
      (parsed.issues = [] ↔ Quiet (events path content)) := by
  have quiet : (events path content).filterMap (issue? content) = [] ↔
      Quiet (events path content) := by
    rw [List.filterMap_eq_nil_iff]
    refine forall₂_congr fun event _ => ?_
    cases event <;> simp [issue?, Event.isFault]
  have severe : ((events path content).filterMap (issue? content)).filter
        (fun issue => issue.severity == .error) =
      (events path content).filterMap (issue? content) := by
    rw [List.filter_eq_self]
    intro issue listed
    obtain ⟨event, -, made⟩ := List.mem_filterMap.mp listed
    cases event with
    | comment => cases made
    | fault offset fault =>
      rw [← Option.some.inj made]
      rfl
  rw [parse, nullOffset?_eq_none_iff.mpr text]
  refine ⟨_, rfl, ?_, ?_⟩
  · simp only [Parsed.withIssues, Parsed.ofContent, severe, Bool.true_and, List.isEmpty_iff]
    exact quiet
  · simpa [Parsed.withIssues, Parsed.ofContent] using quiet

/-- Structural reading of a script source without null characters gives a result. It reports success
exactly for balanced source, and issues exactly for source that is not. -/
theorem parse_accepts_iff (text : '\x00' ∉ content)
    (script : isScriptSource path content = true) :
    ∃ parsed, parse path content = .ok parsed ∧
      (parsed.success = true ↔ Balanced content) ∧ (parsed.issues = [] ↔ Balanced content) := by
  obtain ⟨parsed, result, sound, clean⟩ := parse_of_text path text
  rw [quiet_events_iff script] at sound clean
  exact ⟨parsed, result, sound, clean⟩

/-- A source with a comment opening in a literal, a doubled quote, and a bracket and a quote in a
comment. -/
def coveredSource : List Char := "f(\"/*\", 'it''s') \x7b /** ] \" */ \x7d".toList

/-- What is covered by comments and literals does not count. -/
theorem parse_accepts_covered :
    '\x00' ∉ coveredSource ∧ isScriptSource "Widget.cfc" coveredSource = true ∧
      Balanced coveredSource := by
  have text : '\x00' ∉ coveredSource := by decide +kernel
  have script : isScriptSource "Widget.cfc" coveredSource = true := by decide +kernel
  have success : (parse "Widget.cfc" coveredSource).toOption.map (·.success) = some true := by
    decide +kernel
  obtain ⟨parsed, result, sound, -⟩ := parse_accepts_iff text script
  rw [result] at success
  exact ⟨text, script, sound.mp (Option.some.inj success)⟩

end Parsing

end CfmlTidy.Script
