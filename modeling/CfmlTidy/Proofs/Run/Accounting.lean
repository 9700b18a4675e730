import Mathlib
import CfmlTidy.Proofs.Parse.Issue
import CfmlTidy.Proofs.Result.Counted
import CfmlTidy.Proofs.Run.Coordinator
import CfmlTidy.Run.Lint

/-!
# Accounting for the files of a lint run

Each file of a lint run is accounted for once: it is processed, it fails with an error, or it is
skipped with a warning. `Exit` lists what linting a file can come to, and `Accounts` says how a
result accounts for files. One file is accounted for by its partial result, and parts that account
for their files add up, whatever the order in which they arrive.
-/

namespace CfmlTidy

namespace Rule

/-- A rule whose violations all name the file that was read. -/
def NamesFile (rule : Rule) : Prop :=
  ∀ subject, ∀ violation ∈ rule.outcome subject, violation.file = subject.parsed.path

/-- A rule that is given by what it finds names the file in its violations. -/
theorem namesFile_ofFindings (id category description : String)
    (find : Subject → List Finding) : NamesFile (ofFindings id category description find) := by
  intro subject violation listed
  obtain ⟨finding, -, rfl⟩ := List.mem_map.mp listed
  rfl

/-- Every built-in rule names the file in its violations. -/
theorem namesFile_builtin {rule : Rule} (listed : rule ∈ builtin) : NamesFile rule := by
  simp only [builtin, List.mem_cons, List.not_mem_nil, or_false] at listed
  rcases listed with rfl | rfl | rfl | rfl | rfl | rfl | rfl | rfl | rfl | rfl | rfl | rfl | rfl |
    rfl | rfl | rfl | rfl | rfl | rfl <;> exact namesFile_ofFindings _ _ _ _

/-- The violations that rules find name the file. -/
theorem file_of_mem_analyze {rules : List Rule} (named : ∀ rule ∈ rules, NamesFile rule)
    {subject : Subject} {violation : Violation} (listed : violation ∈ analyze rules subject) :
    violation.file = subject.parsed.path := by
  obtain ⟨rule, active, found⟩ := List.mem_flatMap.mp listed
  exact named rule active subject violation found

end Rule

/-- A snippet leaves the file of a violation as it is. -/
theorem Snippet.file_attach (lines : List (List Char)) (violation : Violation) :
    (attach lines violation).file = violation.file := by
  unfold attach
  cases around? lines violation.line <;> rfl

namespace Run.Linter

variable {linter : Linter} {workspace : Workspace} {snippets : Bool} {file : String}
  {files : List String} {result : RunResult}

/-- The parser that a content is routed to and what it reads, unless it breaks down or finds a parse
error. -/
def reads? (linter : Linter) (file : String) (content : List Char) : Option (Backend × Parsed) :=
  (Backend.ofTag? (linter.parserTag content)).bind fun backend =>
    if linter.breakdown? backend content = none then
      (backend.parse linter.script file content).toOption.map fun parsed => (backend, parsed)
    else none

/-- The parser that reads a file and what it reads, for a file that can be read. -/
def parsed? (linter : Linter) (workspace : Workspace) (file : String) :
    Option (Backend × Parsed) :=
  match (readDecoded workspace linter.settings file).value with
  | .error _ => none
  | .ok (content, _) => linter.reads? file content

/-- Whether a file is processed: it is within the size limit and a parser reads it. -/
def processes (linter : Linter) (workspace : Workspace) (file : String) : Bool :=
  !isTooLarge workspace linter.settings file && (linter.parsed? workspace file).isSome

/-- A content is read when it is routed to a parser that does not break down on it and that reads
it. -/
theorem reads?_eq_some_iff {content : List Char} {backend : Backend} {parsed : Parsed} :
    linter.reads? file content = some (backend, parsed) ↔
      Backend.ofTag? (linter.parserTag content) = some backend ∧
        linter.breakdown? backend content = none ∧
        backend.parse linter.script file content = .ok parsed := by
  rw [reads?, Option.bind_eq_some_iff]
  constructor
  · rintro ⟨other, routed, found⟩
    split_ifs at found with whole
    cases read : other.parse linter.script file content with
    | error error =>
      rw [read] at found
      contradiction
    | ok answer =>
      rw [read] at found
      obtain ⟨rfl, rfl⟩ := Prod.mk.inj (Option.some.inj found)
      exact ⟨routed, whole, read⟩
  · rintro ⟨routed, whole, read⟩
    refine ⟨backend, routed, ?_⟩
    rw [if_pos whole, read]
    rfl

/-- A content that is read comes to the violations found in it. -/
theorem lintContent_of_read {content : List Char} {backend : Backend} {parsed : Parsed}
    (found : linter.reads? file content = some (backend, parsed)) :
    (linter.lintContent snippets file content).value =
      .ok (linter.resultOf snippets backend parsed) := by
  obtain ⟨routed, broke, read⟩ := reads?_eq_some_iff.mp found
  simp only [lintContent, routed, Logged.noting, broke, answerOf, read]

/-- A content that is not read comes to one error. -/
theorem lintContent_of_unread {content : List Char} (absent : linter.reads? file content = none)
    (log : List LogLine) :
    ∃ text, Outcome.partialResult "lint"
      ⟨file, log, (linter.lintContent snippets file content).value⟩ =
        RunResult.empty.addError text := by
  cases routed : Backend.ofTag? (linter.parserTag content) with
  | none =>
    simp only [lintContent, routed]
    exact ⟨_, rfl⟩
  | some backend =>
    cases broke : linter.breakdown? backend content with
    | some crash =>
      simp only [lintContent, routed, Logged.noting, broke]
      exact ⟨_, rfl⟩
    | none =>
      cases read : backend.parse linter.script file content with
      | error error =>
        simp only [lintContent, routed, Logged.noting, broke, answerOf, read]
        exact ⟨_, rfl⟩
      | ok parsed =>
        have found := reads?_eq_some_iff.mpr ⟨routed, broke, read⟩
        rw [found] at absent
        contradiction

/-- What linting a file can come to. -/
inductive Exit (linter : Linter) (workspace : Workspace) (snippets : Bool) (file : String) :
    RunResult → Prop where
  /-- The file is too large. -/
  | skipped (large : isTooLarge workspace linter.settings file = true) :
    Exit linter workspace snippets file (RunResult.empty.addWarning (tooLargeText file))
  /-- The file cannot be read, no parser takes it, its parser breaks down, or it has a parse
  error. -/
  | failed (small : isTooLarge workspace linter.settings file = false)
    (absent : linter.parsed? workspace file = none) (text : String) :
    Exit linter workspace snippets file (RunResult.empty.addError text)
  /-- The file is read. -/
  | analyzed {backend : Backend} {parsed : Parsed}
    (small : isTooLarge workspace linter.settings file = false)
    (found : linter.parsed? workspace file = some (backend, parsed)) :
    Exit linter workspace snippets file (linter.resultOf snippets backend parsed)

/-- Linting a file ends in one of the ways a file can go. -/
theorem lintFile_exit (linter : Linter) (workspace : Workspace) (snippets : Bool)
    (file : String) :
    Exit linter workspace snippets file
      ((linter.lintFile workspace snippets file).partialResult "lint") := by
  unfold lintFile
  cases size : isTooLarge workspace linter.settings file with
  | true => exact Exit.skipped size
  | false =>
    cases reading : (readDecoded workspace linter.settings file).value with
    | error cause =>
      have absent : linter.parsed? workspace file = none := by rw [parsed?, reading]
      simp only [Bool.false_eq_true, if_false, reading]
      exact Exit.failed size absent _
    | ok decoded =>
      have whole : linter.parsed? workspace file = linter.reads? file decoded.1 := by
        rw [parsed?, reading]
      simp only [Bool.false_eq_true, if_false, reading]
      cases read : linter.reads? file decoded.1 with
      | none =>
        obtain ⟨text, failed⟩ := lintContent_of_unread read
          ((readDecoded workspace linter.settings file).log ++
            (linter.lintContent snippets file decoded.1).log)
        rw [failed]
        exact Exit.failed size (whole.trans read) text
      | some found =>
        rw [lintContent_of_read read]
        exact Exit.analyzed size (whole.trans read)

/-- How a result accounts for files. -/
structure Accounts (linter : Linter) (workspace : Workspace) (files : List String)
    (result : RunResult) : Prop where
  /-- Every processed file counts. -/
  processed : result.stats.filesProcessed = files.countP (linter.processes workspace)
  /-- Every file that is too large has a warning. -/
  skipped : result.warnings.length = files.countP (isTooLarge workspace linter.settings)
  /-- Every file is processed or has an error or a warning, and only one of these. -/
  total : result.stats.filesProcessed + result.errors.length + result.warnings.length =
    files.length
  /-- Every processed file is a use of a parser. -/
  usage : (result.stats.parserUsage.map Prod.snd).sum = result.stats.filesProcessed
  /-- Every violation lies in a processed file. -/
  violations : ∀ violation ∈ result.violations,
    violation.file ∈ files ∧ linter.processes workspace violation.file = true

/-- The violations of a file name it. -/
theorem file_of_mem_violationsOf (builtin : ∀ rule ∈ linter.rules, rule ∈ Rule.builtin)
    {parsed : Parsed} {violation : Violation}
    (listed : violation ∈ linter.violationsOf snippets parsed) :
    violation.file = parsed.path := by
  have named : ∀ rule ∈ linter.rules, Rule.NamesFile rule :=
    fun rule active => Rule.namesFile_builtin (builtin rule active)
  unfold violationsOf at listed
  split_ifs at listed
  · obtain ⟨found, analyzed, rfl⟩ := List.mem_map.mp listed
    rw [Snippet.file_attach]
    exact Rule.file_of_mem_analyze named analyzed
  · exact Rule.file_of_mem_analyze named listed
  · contradiction

/-- What is parsed of a file has its name. -/
theorem path_of_parsed? {backend : Backend} {parsed : Parsed}
    (found : linter.parsed? workspace file = some (backend, parsed)) : parsed.path = file := by
  unfold parsed? at found
  split at found
  · contradiction
  · obtain ⟨-, -, read⟩ := reads?_eq_some_iff.mp found
    exact Backend.path_of_parse read

/-- The partial result of a file accounts for that file. -/
theorem Exit.accounts (builtin : ∀ rule ∈ linter.rules, rule ∈ Rule.builtin)
    (exit : Exit linter workspace snippets file result) :
    Accounts linter workspace [file] result := by
  cases exit with
  | skipped large =>
    have idle : linter.processes workspace file = false := by rw [processes, large]; rfl
    refine ⟨?_, ?_, rfl, rfl, fun _ listed => absurd listed List.not_mem_nil⟩
    · simp [idle, RunResult.addWarning, RunResult.empty, Stats.empty]
    · simp [large, RunResult.addWarning, RunResult.empty]
  | failed small absent text =>
    have idle : linter.processes workspace file = false := by rw [processes, absent, small]; rfl
    refine ⟨?_, ?_, rfl, rfl, fun _ listed => absurd listed List.not_mem_nil⟩
    · simp [idle, RunResult.addError, RunResult.empty, Stats.empty]
    · simp [small, RunResult.addError, RunResult.empty]
  | @analyzed backend parsed small found =>
    have busy : linter.processes workspace file = true := by rw [processes, found, small]; rfl
    rw [resultOf, RunResult.addViolations_eq, Stats.countAll_eq]
    refine ⟨?_, ?_, rfl, ?_, ?_⟩
    · simp [busy, RunResult.updateStats, RunResult.empty, Stats.countFile, Stats.countParser,
        Stats.empty]
    · simp [small, RunResult.updateStats, RunResult.empty]
    · rfl
    · intro violation listed
      have named : violation.file = file :=
        (file_of_mem_violationsOf builtin listed).trans (path_of_parsed? found)
      rw [named]
      exact ⟨List.mem_singleton_self file, busy⟩

/-- Files can be accounted for in any order. -/
theorem Accounts.perm {others : List String} (accounts : Accounts linter workspace files result)
    (same : files.Perm others) : Accounts linter workspace others result where
  processed := accounts.processed.trans (same.countP_eq _)
  skipped := accounts.skipped.trans (same.countP_eq _)
  total := accounts.total.trans same.length_eq
  usage := accounts.usage
  violations violation listed := by
    obtain ⟨selected, processed⟩ := accounts.violations violation listed
    exact ⟨same.subset selected, processed⟩

/-- Files of outcomes pass a test as often as the outcomes do one by one. -/
theorem sum_countP_singleton (test : String → Bool) (outcomes : List Outcome) :
    (outcomes.map fun outcome => [outcome.file].countP test).sum =
      (outcomes.map Outcome.file).countP test := by
  induction outcomes with
  | nil => rfl
  | cons outcome rest ih =>
    rw [List.map_cons, List.sum_cons, ih, ← List.countP_append]
    rfl

/-- Outcomes that account for their files do so together. -/
theorem accounts_of_collects {outcomes : List Outcome} {aggregate : Aggregate}
    (parts : ∀ outcome ∈ outcomes,
      Accounts linter workspace [outcome.file] (outcome.partialResult "lint"))
    (collects : Collects "lint" outcomes aggregate) :
    Accounts linter workspace (outcomes.map Outcome.file) aggregate.result := by
  have files : aggregate.result.stats.filesProcessed =
      (outcomes.map fun outcome => (outcome.partialResult "lint").stats.filesProcessed).sum := by
    rw [collects.stats, Stats.total, List.map_map]
    rfl
  have errors : aggregate.result.errors.length =
      (outcomes.map fun outcome => (outcome.partialResult "lint").errors.length).sum := by
    rw [collects.errors, List.length_flatMap]
  have warnings : aggregate.result.warnings.length =
      (outcomes.map fun outcome => (outcome.partialResult "lint").warnings.length).sum := by
    rw [collects.warnings, List.length_flatMap]
  constructor
  · rw [files, ← sum_countP_singleton]
    exact congrArg List.sum (List.map_congr_left fun outcome listed =>
      (parts outcome listed).processed)
  · rw [warnings, ← sum_countP_singleton]
    exact congrArg List.sum (List.map_congr_left fun outcome listed =>
      (parts outcome listed).skipped)
  · have each : outcomes.map (fun outcome =>
        (outcome.partialResult "lint").stats.filesProcessed +
          (outcome.partialResult "lint").errors.length +
          (outcome.partialResult "lint").warnings.length) = outcomes.map fun _ => 1 :=
      List.map_congr_left fun outcome listed => (parts outcome listed).total
    rw [files, errors, warnings, ← List.sum_map_add, ← List.sum_map_add, each]
    simp
  · have usage : (aggregate.result.stats.parserUsage.map Prod.snd).sum =
        (outcomes.map fun outcome =>
          ((outcome.partialResult "lint").stats.parserUsage.map Prod.snd).sum).sum := by
      rw [collects.stats, Stats.sum_parserUsage_total, List.map_map]
      rfl
    rw [usage, files]
    exact congrArg List.sum (List.map_congr_left fun outcome listed =>
      (parts outcome listed).usage)
  · intro violation listed
    rw [collects.violations] at listed
    obtain ⟨outcome, member, found⟩ := List.mem_flatMap.mp listed
    obtain ⟨named, processed⟩ := (parts outcome member).violations violation found
    rw [List.mem_singleton.mp named] at processed ⊢
    exact ⟨List.mem_map_of_mem member, processed⟩

/-- Linting a file comes to an outcome of that file. -/
theorem file_lintFile (linter : Linter) (workspace : Workspace) (snippets : Bool)
    (file : String) : (linter.lintFile workspace snippets file).file = file := by
  unfold lintFile
  split_ifs
  · rfl
  · cases reading : (readDecoded workspace linter.settings file).value <;> simp [reading]

/-- No file of a lint run is lost or counted twice, with one worker or several and in whatever order
the outcomes arrive: every file is processed, has an error or has a warning, every processed file is
a use of a parser, and every violation lies in a processed file. -/
theorem lintFiles_accounts (linter : Linter) (workspace : Workspace)
    (arrival : List Outcome → List Outcome) (snippets : Bool) (files : List String)
    (builtin : ∀ rule ∈ linter.rules, rule ∈ Rule.builtin)
    (delivered : Channel.Delivers (files.map (linter.lintFile workspace snippets))
      (arrival (files.map (linter.lintFile workspace snippets)))) :
    Accounts linter workspace files
      (linter.lintFiles workspace arrival snippets files).result := by
  obtain ⟨order, same, collects⟩ := exists_collects_run
    ⟨linter.options.workers linter.settings files.length, "lint", arrival⟩ _ delivered
  have parts : ∀ outcome ∈ order,
      Accounts linter workspace [outcome.file] (outcome.partialResult "lint") := by
    intro outcome listed
    obtain ⟨file, -, rfl⟩ := List.mem_map.mp (same.subset listed)
    rw [file_lintFile]
    exact (lintFile_exit linter workspace snippets file).accounts builtin
  have named : (order.map Outcome.file).Perm files := by
    have listed := same.map Outcome.file
    rw [List.map_map] at listed
    have each : Outcome.file ∘ linter.lintFile workspace snippets = id := by
      funext file
      exact file_lintFile linter workspace snippets file
    rwa [each, List.map_id] at listed
  exact (accounts_of_collects parts collects).perm named

/-- Settings with a limit of four bytes, two workers and every rule; the parser breaks down on a
content that starts with an exclamation mark. -/
def fragile : Linter where
  settings := ⟨.obj [("parser", .obj [("maxFileSize", .int 4)])], "/", none⟩
  options := { RunOptions.default with mode := .explicit .engine, maxThreads := some 2 }
  script := none
  rules := Rule.builtin
  breakdown? := fun _ content => if content.head? = some '!' then some (some "boom") else none

/-- A workspace with a page to read, one to break down on and one that is too large. -/
def assorted : Workspace :=
  ⟨[(["page.cfm"], .file [0x61, 0x20, 0x0A]), (["odd.cfm"], .file [0x21, 0x0A]),
    (["long.cfm"], .file [0x61, 0x61, 0x61, 0x61, 0x0A])], []⟩

/-- Of a page that is read twice, a page that a parser breaks down on, a page that is too large and
a page that is missing, each is accounted for. -/
theorem lintFiles_accounts_reversed :
    let files := ["page.cfm", "odd.cfm", "long.cfm", "gone.cfm", "page.cfm"]
    let result := (fragile.lintFiles assorted List.reverse true files).result
    result.stats.filesProcessed = 2 ∧ result.errors.length = 2 ∧ result.warnings.length = 1 := by
  intro files result
  have accounts : Accounts fragile assorted files result :=
    lintFiles_accounts fragile assorted List.reverse true files (fun _ listed => listed)
      (Channel.delivers_iff_perm.mpr (List.reverse_perm _))
  have processed : files.countP (fragile.processes assorted) = 2 := by decide +kernel
  have skipped : files.countP (isTooLarge assorted fragile.settings) = 1 := by decide +kernel
  have count : files.length = 5 := rfl
  have total := accounts.total
  rw [accounts.processed, accounts.skipped, processed, skipped, count] at total
  refine ⟨accounts.processed.trans processed, ?_, accounts.skipped.trans skipped⟩
  omega

end Run.Linter

end CfmlTidy
