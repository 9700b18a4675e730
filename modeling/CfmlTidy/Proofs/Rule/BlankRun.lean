import Mathlib
import CfmlTidy.Proofs.Text.Lines
import CfmlTidy.Rule.Whitespace

/-!
# Runs of blank lines

The rule on blank lines counts as it goes and forgets its count at every line that is not blank.
What it reports are the maximal runs of blank lines with a line behind them, as far as they are
longer than the limit. The proof keeps the whole list of lines in view: it is cut into the lines
before the current run, the blank lines counted so far, and the lines to come, and a step moves the
cut by one line.
-/

namespace CfmlTidy.Rule

open CfmlTidy.Text (allBlank splitLines trim trim_eq_nil_iff)

/-- At an index of some lines, a line stands of which trimming leaves nothing. -/
def BlankAt (lines : List (List Char)) (index : Nat) : Prop :=
  ∃ line, lines[index]? = some line ∧ trim line = []

/-- At an index of some lines, a line stands of which trimming leaves something. -/
def FilledAt (lines : List (List Char)) (index : Nat) : Prop :=
  ∃ line, lines[index]? = some line ∧ trim line ≠ []

/-- Some neighbouring lines of a list. -/
@[ext]
structure Stretch where
  /-- The index of the first line, counted from zero. -/
  start : Nat
  /-- The number of lines. -/
  count : Nat

namespace Stretch

/-- The index of the line behind a stretch. -/
def stop (run : Stretch) : Nat := run.start + run.count

/-- A maximal run of blank lines that is followed by a line. -/
structure IsBlankRun (lines : List (List Char)) (run : Stretch) : Prop where
  /-- Every line of the run is blank. -/
  blank : ∀ index, run.start ≤ index → index < run.stop → BlankAt lines index
  /-- The line before the run, if there is one, is not blank. -/
  before : ∀ index, index + 1 = run.start → FilledAt lines index
  /-- A line follows the run, and it is not blank. -/
  behind : FilledAt lines run.stop

/-- What is found of a run of blank lines that is too long: a remark on the line behind it. -/
def finding (limit : Nat) (run : Stretch) : Finding :=
  .info ⟨run.stop + 1, 1⟩
    ("Too many consecutive empty lines (" ++ toString run.count ++ ", max " ++ toString limit ++
      ")")

/-- The violation that is reported of a run of blank lines that is too long: a remark at the first
column of the line behind it, with the length of the run and the limit. -/
def report (file : String) (limit : Nat) (run : Stretch) : Violation where
  ruleId := "EXCESSIVE_EMPTY_LINES"
  message := "Too many consecutive empty lines (" ++ toString run.count ++ ", max " ++
    toString limit ++ ")"
  severity := .info
  file := file
  line := run.stop + 1
  column := 1
  endLine := run.stop + 1
  endColumn := 2
  category := some "STYLE_GUIDE"
  snippet := none
  fix := none

end Stretch

section Runs

variable {lines front blank rest : List (List Char)} {index limit : Nat} {run : Stretch}

/-- A blank line is not a filled one. -/
theorem BlankAt.not_filledAt (blank : BlankAt lines index) : ¬ FilledAt lines index := by
  rintro ⟨line, found, filled⟩
  obtain ⟨other, found', empty⟩ := blank
  obtain rfl := Option.some.inj (found.symm.trans found')
  exact filled empty

/-- A run of blank lines that starts no earlier than a known one is that one or starts behind it.
The shorter one of two different runs with one start would be followed by a blank line of the
other. -/
theorem Stretch.IsBlankRun.eq_or_behind {known : Stretch}
    (blank : ∀ index, known.start ≤ index → index < known.stop → BlankAt lines index)
    (behind : FilledAt lines known.stop) (isRun : run.IsBlankRun lines) (present : 0 < run.count)
    (later : known.start ≤ run.start) : run = known ∨ known.stop < run.start := by
  have runStop : run.stop = run.start + run.count := rfl
  have knownStop : known.stop = known.start + known.count := rfl
  rcases later.eq_or_lt with same | inside
  · refine Or.inl (Stretch.ext same.symm ?_)
    by_contra differs
    rcases Nat.lt_or_gt_of_ne differs with shorter | longer
    · exact (blank run.stop (by omega) (by omega)).not_filledAt isRun.behind
    · exact (isRun.blank known.stop (by omega) (by omega)).not_filledAt behind
  · right
    by_contra early
    rcases Nat.lt_or_ge run.start known.stop with within | beyond
    · exact (blank (run.start - 1) (by omega) (by omega)).not_filledAt (isRun.before _ (by omega))
    · have first := isRun.blank known.stop (by omega) (by omega)
      exact first.not_filledAt behind

/-- Lines that have only blanks are blank wherever they stand. -/
theorem blankAt_counted (counted : ∀ line ∈ blank, allBlank line = true)
    (first : front.length ≤ index) (last : index < front.length + blank.length)
    (rest : List (List Char)) : BlankAt (front ++ blank ++ rest) index := by
  have inside : index - front.length < blank.length := by omega
  refine ⟨blank[index - front.length], ?_, ?_⟩
  · rw [List.append_assoc, List.getElem?_append_right first, List.getElem?_append_left inside,
      List.getElem?_eq_getElem inside]
  · exact (trim_eq_nil_iff _).mpr (counted _ (List.getElem_mem inside))

/-- A line that does not have only blanks is filled wherever it stands. -/
theorem filledAt_length {line : List Char} (filled : allBlank line = false)
    (rest : List (List Char)) : FilledAt (front ++ line :: rest) front.length := by
  refine ⟨line, by simp, fun nothing => ?_⟩
  rw [(trim_eq_nil_iff line).mp nothing] at filled
  contradiction

/-- The lines counted so far are a run when a line follows them that is not blank. -/
theorem isBlankRun_counted {line : List Char}
    (ended : ∀ last ∈ front.getLast?, allBlank last = false)
    (counted : ∀ line ∈ blank, allBlank line = true) (filled : allBlank line = false)
    (rest : List (List Char)) :
    Stretch.IsBlankRun (front ++ blank ++ line :: rest) ⟨front.length, blank.length⟩ where
  blank _ first last := blankAt_counted counted first last (line :: rest)
  before index follows := by
    cases front using List.reverseRecOn with
    | nil => contradiction
    | append_singleton early last =>
      have whole : early ++ [last] ++ blank ++ line :: rest =
          early ++ last :: (blank ++ line :: rest) := by simp
      obtain rfl : index = early.length := by simpa using follows
      rw [whole]
      exact filledAt_length (ended last (by simp)) _
  behind := by
    have there := @filledAt_length (front ++ blank) line filled rest
    rwa [List.length_append] at there

/-- Behind the lines before a run and the blank lines that were counted of it, what is found are the
runs that are longer than the limit and do not start before, in order. At the line behind the
counted ones, a run that does not start before them is these lines or is found later. -/
theorem emptyFindings_eq (ended : ∀ last ∈ front.getLast?, allBlank last = false)
    (counted : ∀ line ∈ blank, allBlank line = true) :
    ∃ runs : List Stretch,
      emptyFindings limit (front.length + blank.length + 1) blank.length rest =
          runs.map (Stretch.finding limit) ∧
        runs.Pairwise (·.start < ·.start) ∧
        ∀ run, run ∈ runs ↔
          run.IsBlankRun (front ++ blank ++ rest) ∧ limit < run.count ∧
            front.length ≤ run.start := by
  induction rest generalizing front blank with
  | nil =>
    refine ⟨[], rfl, .nil, fun run => ⟨fun listed => absurd listed (by simp), ?_⟩⟩
    rintro ⟨isRun, long, later⟩
    obtain ⟨line, found, -⟩ := isRun.behind
    have within := (List.getElem?_eq_some_iff.mp found).1
    rw [List.append_nil, List.length_append] at within
    have runStop : run.stop = run.start + run.count := rfl
    have last := blankAt_counted counted (by omega) within []
    exact absurd isRun.behind last.not_filledAt
  | cons line rest ih =>
    rw [emptyFindings]
    by_cases empty : allBlank line = true
    · rw [if_pos empty]
      have longer : ∀ other ∈ blank ++ [line], allBlank other = true := by
        intro other listed
        rcases List.mem_append.mp listed with early | last
        · exact counted other early
        · rwa [List.mem_singleton.mp last]
      have later := ih ended longer
      rwa [List.length_append, List.length_singleton, ← List.append_assoc,
        List.append_assoc _ [line], List.singleton_append] at later
    · rw [if_neg empty]
      have filled := Bool.eq_false_iff.mpr empty
      obtain ⟨runs, found, ordered, listed⟩ :=
        @ih (front ++ blank ++ [line]) [] (by simp [filled]) (by simp)
      simp only [List.append_nil, List.length_append, List.length_singleton, List.length_nil,
        List.append_assoc, Nat.add_zero, List.singleton_append] at found listed
      rw [← Nat.add_assoc] at found
      have here := isBlankRun_counted ended counted filled rest
      rw [List.append_assoc] at here ⊢
      have split (run : Stretch) :
          (run.IsBlankRun (front ++ (blank ++ line :: rest)) ∧ limit < run.count ∧
              front.length ≤ run.start) ↔
            (run = ⟨front.length, blank.length⟩ ∧ limit < blank.length) ∨ run ∈ runs := by
        rw [listed]
        constructor
        · rintro ⟨isRun, long, later⟩
          rcases isRun.eq_or_behind here.blank here.behind (by omega) later with rfl | beyond
          · exact Or.inl ⟨rfl, long⟩
          · exact Or.inr ⟨isRun, long, beyond⟩
        · rintro (⟨rfl, long⟩ | ⟨isRun, long, beyond⟩)
          · exact ⟨here, long, le_rfl⟩
          · exact ⟨isRun, long, by omega⟩
      by_cases long : limit < blank.length
      · refine ⟨⟨front.length, blank.length⟩ :: runs, ?_, ?_, fun run => ?_⟩
        · rw [if_pos long, found]
          rfl
        · refine List.pairwise_cons.mpr ⟨fun run among => ?_, ordered⟩
          have beyond := ((listed run).mp among).2.2
          simp only
          omega
        · rw [split, List.mem_cons, and_iff_left long]
      · refine ⟨runs, ?_, ordered, fun run => ?_⟩
        · rw [if_neg long, found]
          rfl
        · rw [split]
          simp [long]

end Runs

/-- The rule on blank lines reports, in order and once each, the maximal runs of blank lines that
are longer than the limit and that another line follows: at the first column of that line, with the
length of the run and the limit. A negative limit stands for zero. -/
theorem excessiveEmptyLines_exact (parsed : Parsed) (settings : Settings) :
    ∃ runs : List Stretch, runs.Pairwise (·.start < ·.start) ∧
      (∀ run, run ∈ runs ↔
        run.IsBlankRun (splitLines parsed.content) ∧ settings.maxEmptyLines.toNat < run.count) ∧
      excessiveEmptyLines.check (.ofParsed parsed settings) =
        .ok (runs.map (Stretch.report parsed.path settings.maxEmptyLines.toNat)) := by
  obtain ⟨runs, found, ordered, listed⟩ :=
    @emptyFindings_eq [] [] (splitLines parsed.content) settings.maxEmptyLines.toNat
      (by simp) (by simp)
  refine ⟨runs, ordered, fun run => by simpa using listed run, ?_⟩
  have reported : emptyFindings settings.maxEmptyLines.toNat 1 0 (splitLines parsed.content) =
      runs.map (Stretch.finding settings.maxEmptyLines.toNat) := found
  simp only [excessiveEmptyLines, ofFindings, Subject.ofParsed, reported, List.map_map]
  refine congrArg Except.ok (List.map_congr_left fun run _ => ?_)
  have first : max (run.stop + 1) 1 = run.stop + 1 := by omega
  simp only [Function.comp_apply, Stretch.finding, Finding.info, Violation.located, first]
  rfl

-- A run at the start, one of whose lines has a space, is reported, and a run at the end is not.
example : (emptyFindings 1 1 0 (splitLines " \n\nx\n\n\n \n".toList)).map (·.place) = [⟨3, 1⟩] := by
  decide

end CfmlTidy.Rule
