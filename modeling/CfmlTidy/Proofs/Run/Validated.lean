import Mathlib
import CfmlTidy.Proofs.Result.Counted
import CfmlTidy.Proofs.Run.Coordinator
import CfmlTidy.Run.Lint
import CfmlTidy.Settings.Validation

/-!
# Runs with validated settings

Validation and the run look at the same settings with tests of their own. `Settings.Sound` says what
validation vouches for, and `validate_eq_nil_iff` that it vouches for exactly that. It is all a run
needs: every content is routed to a parser that exists, the patterns of the settings compile, and
there is at least one worker. What is left to go wrong is a root that does not exist, and with a
single file what `Linter.Failure` lists.
-/

namespace CfmlTidy

namespace Settings

variable {settings : Settings}

/-- Settings that a run can use. -/
structure Sound (settings : Settings) : Prop where
  /-- The parser for components and markup is known. -/
  primary : settings.primaryParser ∈ knownParsers
  /-- The parser for everything else is known. -/
  fallback : settings.fallbackParser ∈ knownParsers
  /-- There is a worker. -/
  threads : 1 ≤ settings.maxThreads
  /-- A tab has a width. -/
  indent : 1 ≤ settings.indentSize
  /-- The kind of indentation is known. -/
  indentType : settings.indentType ∈ knownIndentTypes
  /-- The include patterns are globs. -/
  includes : ∀ pattern ∈ settings.includePatterns, ∃ tokens, Glob.read pattern = .ok tokens
  /-- The exclude patterns are globs. -/
  excludes : ∀ pattern ∈ settings.excludePatterns, ∃ tokens, Glob.read pattern = .ok tokens

/-- A parser is accepted exactly when its tag is known. -/
theorem parserFlaws_eq_nil_iff (path role tag : String) :
    parserFlaws path role tag = [] ↔ tag ∈ knownParsers := by
  unfold parserFlaws
  simp only [ite_eq_left_iff, List.cons_ne_nil, imp_false, not_not, List.contains_iff_mem]

/-- Patterns are accepted exactly when each of them can be read. -/
theorem patternFlaws_eq_nil_iff (key : String) (patterns : List String) :
    patternFlaws key patterns = [] ↔
      ∀ pattern ∈ patterns, ∃ tokens, Glob.read pattern = .ok tokens := by
  unfold patternFlaws
  rw [List.filterMap_eq_nil_iff]
  refine forall₂_congr fun pattern listed => ?_
  cases Glob.read pattern <;> simp

/-- Numbers are accepted exactly when there is a worker, an indentation and a known kind of
indentation. -/
theorem numberFlaws_eq_nil_iff :
    settings.numberFlaws = [] ↔
      1 ≤ settings.maxThreads ∧ 1 ≤ settings.indentSize ∧
        settings.indentType ∈ knownIndentTypes := by
  simp only [numberFlaws, List.append_eq_nil_iff, ite_eq_right_iff, ite_eq_left_iff,
    List.cons_ne_nil, imp_false, not_lt, not_not, List.contains_iff_mem, and_assoc]

/-- Validation finds no flaw exactly in the settings that a run can use. -/
theorem validate_eq_nil_iff : settings.validate = [] ↔ Sound settings := by
  simp only [validate, List.append_eq_nil_iff, parserFlaws_eq_nil_iff, numberFlaws_eq_nil_iff,
    patternFlaws_eq_nil_iff]
  constructor
  · rintro ⟨⟨⟨⟨primary, fallback⟩, threads, indent, indentType⟩, includes⟩, excludes⟩
    exact ⟨primary, fallback, threads, indent, indentType, includes, excludes⟩
  · intro sound
    exact ⟨⟨⟨⟨sound.primary, sound.fallback⟩, sound.threads, sound.indent, sound.indentType⟩,
      sound.includes⟩, sound.excludes⟩

end Settings

/-- A tag that validation accepts names a parser. -/
theorem Backend.ofTag?_of_known {tag : String} (known : tag ∈ Settings.knownParsers) :
    ∃ backend, Backend.ofTag? tag = some backend := by
  simp only [Settings.knownParsers, List.mem_cons, List.not_mem_nil, or_false] at known
  rcases known with rfl | rfl | rfl
  · exact ⟨.structural, by decide +kernel⟩
  · exact ⟨.engine, by decide +kernel⟩
  · exact ⟨.permissive, by decide +kernel⟩

/-- Every parser has a known tag. -/
theorem Backend.tag_known (backend : Backend) : backend.tag ∈ Settings.knownParsers := by
  cases backend <;> decide

/-- Every content is routed to a parser that exists. -/
theorem ParserMode.ofTag?_select {settings : Settings} (sound : settings.Sound) (mode : ParserMode)
    (content : List Char) :
    ∃ backend, Backend.ofTag?
      (mode.select content settings.primaryParser settings.fallbackParser) = some backend := by
  apply Backend.ofTag?_of_known
  cases mode with
  | explicit backend => exact backend.tag_known
  | auto =>
    unfold ParserMode.select
    split_ifs
    · exact sound.primary
    · exact sound.fallback

namespace Selection

/-- A pattern does not compile when it has a wildcard and is no glob. -/
theorem PathPattern.ofText_error_iff {pattern : String} :
    (∃ problem, PathPattern.ofText pattern = .error problem) ↔
      hasWildcard pattern = true ∧ ∃ fault, Glob.read pattern = .error fault := by
  unfold PathPattern.ofText
  cases hasWildcard pattern <;> cases Glob.read pattern <;> simp

/-- A list of patterns has a problem exactly when one of them has. -/
theorem mapM_ofText_error_iff {patterns : List String} :
    (∃ problem, patterns.mapM PathPattern.ofText = .error problem) ↔
      ∃ pattern ∈ patterns, ∃ problem, PathPattern.ofText pattern = .error problem := by
  induction patterns with
  | nil =>
    have compiled : [].mapM PathPattern.ofText = .ok [] := rfl
    simp [compiled]
  | cons pattern rest ih =>
    rw [List.exists_mem_cons_iff, ← ih, List.mapM_cons]
    cases PathPattern.ofText pattern with
    | error problem => simp [Bind.bind, Except.bind]
    | ok first =>
      cases rest.mapM PathPattern.ofText <;>
        simp [Bind.bind, Except.bind, Pure.pure, Except.pure]

/-- Patterns make no filter when one of them does not compile. -/
theorem Filter.ofTexts_error_iff {includes excludes : List String} (base : String) :
    (∃ problem, Filter.ofTexts includes excludes base = .error problem) ↔
      ∃ pattern ∈ includes ++ excludes,
        hasWildcard pattern = true ∧ ∃ fault, Glob.read pattern = .error fault := by
  simp only [← PathPattern.ofText_error_iff, List.mem_append, or_and_right, exists_or,
    ← mapM_ofText_error_iff]
  unfold Filter.ofTexts
  cases includes.mapM PathPattern.ofText with
  | error problem => simp [Bind.bind, Except.bind]
  | ok first =>
    cases excludes.mapM PathPattern.ofText <;>
      simp [Bind.bind, Except.bind, Pure.pure, Except.pure]

/-- Patterns that are globs make a filter. -/
theorem Filter.ofTexts_of_read {includes excludes : List String}
    (included : ∀ pattern ∈ includes, ∃ tokens, Glob.read pattern = .ok tokens)
    (excluded : ∀ pattern ∈ excludes, ∃ tokens, Glob.read pattern = .ok tokens) (base : String) :
    ∃ filter, Filter.ofTexts includes excludes base = .ok filter := by
  cases compiled : Filter.ofTexts includes excludes base with
  | ok filter => exact ⟨filter, rfl⟩
  | error problem =>
    obtain ⟨pattern, listed, -, fault, unread⟩ :=
      (Filter.ofTexts_error_iff base).mp ⟨problem, compiled⟩
    have read : ∃ tokens, Glob.read pattern = .ok tokens :=
      (List.mem_append.mp listed).elim (included pattern) (excluded pattern)
    obtain ⟨tokens, read⟩ := read
    rw [unread] at read
    contradiction

end Selection

namespace Run

variable {settings : Settings}

/-- Without patterns of the caller, only a root that does not exist is a problem. -/
theorem selectInputs_problem (sound : settings.Sound) {options : RunOptions}
    (noIncludes : options.includes = []) (noExcludes : options.excludes = [])
    {workspace : Workspace} {root : String} {problem : Problem}
    (failed : (selectInputs workspace settings options root).value = .error problem) :
    problem = .unreadable root Selection.noRootText ∧ workspace.holds root = false := by
  obtain ⟨filter, compiled⟩ :=
    Selection.Filter.ofTexts_of_read sound.includes sound.excludes settings.baseDir
  unfold selectInputs at failed
  rw [noIncludes, noExcludes, List.append_nil, List.append_nil, Selection.select] at failed
  simp only [compiled] at failed
  split_ifs at failed with file missing
  · contradiction
  · obtain rfl := Except.error.inj failed
    exact ⟨rfl, by simpa using missing⟩
  · contradiction

/-- There is a worker, whatever the caller chooses. -/
theorem workers_pos (options : RunOptions) (settings : Settings) (count : Nat) :
    1 ≤ options.workers settings count := by
  unfold RunOptions.workers
  split_ifs
  · exact le_refl 1
  · exact le_max_right _ 1

/-- Without a choice of the caller, several files have as many workers as the settings say. -/
theorem workers_eq (sound : settings.Sound) {options : RunOptions} {count : Nat}
    (unchosen : options.maxThreads = none) (parallel : settings.parallel = true)
    (several : 1 < count) : (options.workers settings count : Int) = settings.maxThreads := by
  have threads := sound.threads
  have shared : (!settings.parallel || decide (count ≤ 1)) = false := by simp [parallel, several]
  unfold RunOptions.workers RunOptions.requestedWorkers
  rw [unchosen, shared, if_neg Bool.false_ne_true]
  simp only
  rw [if_neg (by omega)]
  omega

namespace Linter

variable {linter : Linter} {workspace : Workspace} {snippets : Bool} {file error : String}

/-- How linting a file fails when its content is routed to a parser. -/
inductive Failure (file : String) : String → Prop where
  /-- The file cannot be read. -/
  | unreadable (cause : FileError) : Failure file (unreadableText file cause)
  /-- The parser finds no way to read it. -/
  | unparsed (error : ParseError) :
    Failure file ("Parse error in " ++ file ++ ": " ++ error.message)
  /-- The parser breaks down. -/
  | broken (crash : Option String) : Failure file (breakdownText "lint" file crash)

/-- A text that starts with a letter starts with it whatever follows. -/
theorem head?_append {text : String} {letter : Char} (starts : text.toList.head? = some letter)
    (rest : String) : (text ++ rest).toList.head? = some letter := by
  rw [String.toList_append, List.head?_append, starts]
  rfl

/-- What is said of a file that no parser takes is said of no other failure. -/
theorem Failure.ne_noParser (failure : Failure file error) (other : String) :
    error ≠ "No parser available for: " ++ other := by
  intro same
  have none : error.toList.head? = some 'N' := by
    rw [same]
    exact head?_append rfl other
  cases failure with
  | unreadable cause =>
    have starts : (unreadableText file cause).toList.head? = some 'F' :=
      head?_append (head?_append (head?_append rfl file) ": ") cause.message
    rw [starts] at none
    contradiction
  | unparsed cause =>
    have starts : ("Parse error in " ++ file ++ ": " ++ cause.message).toList.head? = some 'P' :=
      head?_append (head?_append (head?_append rfl file) ": ") cause.message
    rw [starts] at none
    contradiction
  | broken crash =>
    have starts : (breakdownText "lint" file crash).toList.head? = some 'F' :=
      head?_append (head?_append (head?_append (head?_append (head?_append rfl "lint") " ") file)
        ": ") (crashText crash)
    rw [starts] at none
    contradiction

/-- The result of a parsed file has no errors beside its violations. -/
theorem errors_resultOf (backend : Backend) (parsed : Parsed) :
    (linter.resultOf snippets backend parsed).errors = [] := by
  rw [resultOf, RunResult.addViolations_eq]
  rfl

/-- An error of a content that is routed to a parser is one of its failures. -/
theorem failure_of_mem_lintContent {content : List Char} {backend : Backend} {log : List LogLine}
    (routed : Backend.ofTag? (linter.parserTag content) = some backend)
    (listed : error ∈ (Outcome.partialResult "lint"
      ⟨file, log, (linter.lintContent snippets file content).value⟩).errors) :
    Failure file error := by
  simp only [lintContent, routed, Logged.noting] at listed
  cases broke : linter.breakdown? backend content with
  | some crash =>
    simp only [broke] at listed
    obtain rfl := List.mem_singleton.mp listed
    exact Failure.broken crash
  | none =>
    simp only [broke, answerOf] at listed
    cases read : backend.parse linter.script file content with
    | error cause =>
      simp only [read] at listed
      obtain rfl := List.mem_singleton.mp listed
      exact Failure.unparsed cause
    | ok parsed =>
      simp only [read] at listed
      have none : error ∈ (linter.resultOf snippets backend parsed).errors := listed
      rw [errors_resultOf] at none
      contradiction

/-- An error of a file under sound settings is one of its failures. -/
theorem failure_of_mem_lintFile (sound : linter.settings.Sound)
    (listed : error ∈ ((linter.lintFile workspace snippets file).partialResult "lint").errors) :
    Failure file error := by
  unfold lintFile at listed
  split_ifs at listed
  · contradiction
  · cases reading : (readDecoded workspace linter.settings file).value with
    | error cause =>
      simp only [reading] at listed
      obtain rfl := List.mem_singleton.mp listed
      exact Failure.unreadable cause
    | ok decoded =>
      obtain ⟨backend, routed⟩ := linter.options.mode.ofTag?_select sound decoded.1
      simp only [reading] at listed
      exact failure_of_mem_lintContent routed listed

/-- An error of a run under sound settings is a failure of one of its files. -/
theorem failure_of_mem_lintFiles (sound : linter.settings.Sound)
    {arrival : List Outcome → List Outcome} {files : List String}
    (delivered : Channel.Delivers (files.map (linter.lintFile workspace snippets))
      (arrival (files.map (linter.lintFile workspace snippets))))
    (listed : error ∈ (linter.lintFiles workspace arrival snippets files).result.errors) :
    ∃ file ∈ files, Failure file error := by
  obtain ⟨order, same, collects⟩ := exists_collects_run
    ⟨linter.options.workers linter.settings files.length, "lint", arrival⟩ _ delivered
  have errors := collects.errors
  change (linter.lintFiles workspace arrival snippets files).result.errors = _ at errors
  rw [errors] at listed
  obtain ⟨outcome, arrived, said⟩ := List.mem_flatMap.mp listed
  obtain ⟨file, selected, rfl⟩ := List.mem_map.mp (same.subset arrived)
  exact ⟨file, selected, failure_of_mem_lintFile sound said⟩

end Linter

/-- Settings without a flaw let a run fail in no later step. Every content is routed to a parser
that exists, so no error of a run says that there is none; the patterns of the settings compile, so
without patterns of the caller only a root that does not exist stops the selection of files; and
there is a worker for every number of files, as many as the settings say unless the caller
chooses. -/
theorem unflawed_settings_run (settings : Settings) (unflawed : settings.validate = []) :
    (∀ (mode : ParserMode) (content : List Char), ∃ backend, Backend.ofTag?
        (mode.select content settings.primaryParser settings.fallbackParser) = some backend) ∧
      (∀ (linter : Linter) (workspace : Workspace) (arrival : List Outcome → List Outcome)
        (snippets : Bool) (files : List String), linter.settings = settings →
        Channel.Delivers (files.map (linter.lintFile workspace snippets))
          (arrival (files.map (linter.lintFile workspace snippets))) →
        ∀ error ∈ (linter.lintFiles workspace arrival snippets files).result.errors,
          ∃ file ∈ files, Linter.Failure file error ∧
            ∀ other, error ≠ "No parser available for: " ++ other) ∧
      (∀ base, ∃ filter, Selection.Filter.ofTexts settings.includePatterns
        settings.excludePatterns base = .ok filter) ∧
      (∀ (options : RunOptions) (workspace : Workspace) (root : String) (problem : Problem),
        options.includes = [] → options.excludes = [] →
        (selectInputs workspace settings options root).value = .error problem →
        problem = .unreadable root Selection.noRootText ∧ workspace.holds root = false) ∧
      ∀ (options : RunOptions) (count : Nat), 1 ≤ options.workers settings count ∧
        (options.maxThreads = none → settings.parallel = true → 1 < count →
          (options.workers settings count : Int) = settings.maxThreads) := by
  have sound := Settings.validate_eq_nil_iff.mp unflawed
  refine ⟨fun mode content => mode.ofTag?_select sound content, ?_,
    Selection.Filter.ofTexts_of_read sound.includes sound.excludes, ?_, ?_⟩
  · rintro linter workspace arrival snippets files rfl delivered error listed
    obtain ⟨file, selected, failure⟩ :=
      Linter.failure_of_mem_lintFiles sound delivered listed
    exact ⟨file, selected, failure, failure.ne_noParser⟩
  · intro options workspace root problem noIncludes noExcludes failed
    exact selectInputs_problem sound noIncludes noExcludes failed
  · intro options count
    exact ⟨workers_pos options settings count, workers_eq sound⟩

/-- Settings with a script engine first, two workers and patterns of every kind. -/
def tailored : Settings :=
  Settings.layered (.obj
    [("excludes", .arr [.str "build", .str "**/[a-m]?.cfm"]),
      ("includes", .arr [.str "**/*.{cfc,cfm}"]),
      ("parser", .obj [("fallback", .str "regex"), ("primary", .str "lucee")]),
      ("performance", .obj [("maxThreads", .str " 2 ")])]) "/work"

/-- The tailored settings have no flaw, and a run with them has the two workers they ask for. -/
theorem unflawed_settings_run_tailored :
    tailored.validate = [] ∧ tailored.maxThreads = 2 ∧
      (RunOptions.default.workers tailored 5 : Int) = 2 ∧
      ∃ filter, Selection.Filter.ofTexts tailored.includePatterns tailored.excludePatterns "/work" =
        .ok filter := by
  have unflawed : tailored.validate = [] := by decide +kernel
  have threads : tailored.maxThreads = 2 := by decide +kernel
  have parallel : tailored.parallel = true := by decide +kernel
  obtain ⟨-, -, filter, -, workers⟩ := unflawed_settings_run tailored unflawed
  have shared := (workers RunOptions.default 5).2 rfl parallel (by decide)
  exact ⟨unflawed, threads, shared.trans threads, filter "/work"⟩

end Run

end CfmlTidy
