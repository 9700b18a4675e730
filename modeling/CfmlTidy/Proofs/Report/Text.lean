import Mathlib
import CfmlTidy.Proofs.Report.Occurrence
import CfmlTidy.Proofs.Text.Lines
import CfmlTidy.Report.Text

/-!
# Violations under their files

The text report takes the violations of a run apart by file and puts those of a file in order. Files
are listed by first occurrence, so that every violation belongs to exactly one of them, and the
groups together are the violations of the run. Sorting is stable: violations at one place of a file
are a list that is sorted as it stands, and such a list comes out of sorting as it went in. How rows
look is spelled out here, with and without colors, and the report is compared with that.
-/

namespace CfmlTidy.Report.Text

open CfmlTidy.Text (splitOn stripReturn splitBy_of_uncut splitBy_append_cons splitBy_ne_nil)

/-- Files are listed by first occurrence. -/
theorem firstOccurrences_distinct (texts : List String) :
    FirstOccurrences (distinct texts) texts := by
  induction texts with
  | nil => exact .nil
  | cons text rest ih => exact ih.cons text

section Order

variable {line column : Nat} {left right : Violation}

/-- A violation stands no later in its file than another. -/
def NoLater (left right : Violation) : Prop :=
  left.line < right.line ∨ left.line = right.line ∧ left.column ≤ right.column

/-- Whether a violation stands at a place. -/
def isAt (line column : Nat) (violation : Violation) : Bool :=
  violation.line == line && violation.column == column

/-- Violations put in order: none is lost or doubled, they ascend by place, and those at one place
stand as they stood. -/
structure Arranged (original arranged : List Violation) : Prop where
  /-- They are the same violations. -/
  perm : arranged.Perm original
  /-- They ascend by line, and within a line by column. -/
  ascending : arranged.Pairwise NoLater
  /-- At every place, they keep their order. -/
  stable : ∀ line column,
    arranged.filter (isAt line column) = original.filter (isAt line column)

/-- A violation is at a place when its line and its column are those of the place. -/
theorem isAt_iff {violation : Violation} :
    isAt line column violation = true ↔ violation.line = line ∧ violation.column = column := by
  simp [isAt]

/-- Sorting compares by what stands no later. -/
theorem placeLe_iff : placeLe left right = true ↔ NoLater left right := by
  simp [placeLe, NoLater]

/-- The order by place is transitive. -/
theorem placeLe_trans (left middle right : Violation) (first : placeLe left middle = true)
    (second : placeLe middle right = true) : placeLe left right = true := by
  rw [placeLe_iff, NoLater] at *
  omega

/-- Of two violations, one stands no later than the other. -/
theorem placeLe_total (left right : Violation) :
    (placeLe left right || placeLe right left) = true := by
  rw [Bool.or_eq_true, placeLe_iff, placeLe_iff, NoLater, NoLater]
  omega

/-- Sorting keeps the order of violations at one place. -/
theorem filter_isAt_mergeSort (line column : Nat) (violations : List Violation) :
    (violations.mergeSort placeLe).filter (isAt line column) =
      violations.filter (isAt line column) := by
  have together : (violations.filter (isAt line column)).Pairwise
      fun left right => placeLe left right = true := by
    refine List.pairwise_of_forall_mem_list fun left here right there => ?_
    have first := isAt_iff.mp (List.mem_filter.mp here).2
    have second := isAt_iff.mp (List.mem_filter.mp there).2
    rw [placeLe_iff, NoLater]
    omega
  have within : (violations.filter (isAt line column)).Sublist (violations.mergeSort placeLe) :=
    List.sublist_mergeSort placeLe_trans placeLe_total together List.filter_sublist
  have kept : (violations.filter (isAt line column)).Sublist
      ((violations.mergeSort placeLe).filter (isAt line column)) := by
    have narrowed := within.filter (isAt line column)
    simpa only [List.filter_filter, Bool.and_self] using narrowed
  have count : (violations.filter (isAt line column)).length =
      ((violations.mergeSort placeLe).filter (isAt line column)).length :=
    ((List.mergeSort_perm violations placeLe).filter _).length_eq.symm
  exact (kept.eq_of_length count).symm

/-- Sorting puts violations in order. -/
theorem arranged_mergeSort (violations : List Violation) :
    Arranged violations (violations.mergeSort placeLe) where
  perm := List.mergeSort_perm violations placeLe
  ascending := by
    have sorted := List.pairwise_mergeSort placeLe_trans placeLe_total violations
    exact sorted.imp fun before => placeLe_iff.mp before
  stable line column := filter_isAt_mergeSort line column violations

end Order

section Groups

variable {files : List String} {violations : List Violation}

/-- Violations taken apart by file are together what they were, when every file is listed once.
Behind the first file, leaving out its violations changes nothing. -/
theorem flatMap_filter_perm (once : files.Nodup)
    (covered : ∀ violation ∈ violations, violation.file ∈ files) :
    (files.flatMap fun file => violations.filter fun violation => violation.file == file).Perm
      violations := by
  induction files generalizing violations with
  | nil =>
    have none : violations = [] :=
      List.eq_nil_iff_forall_not_mem.mpr fun violation listed => by
        simpa using covered violation listed
    rw [none, List.flatMap_nil]
  | cons file rest ih =>
    obtain ⟨absent, later⟩ := List.nodup_cons.mp once
    let others := violations.filter fun violation => !(violation.file == file)
    have remaining : ∀ violation ∈ others, violation.file ∈ rest := by
      intro violation listed
      obtain ⟨among, apart⟩ := List.mem_filter.mp listed
      have known := covered violation among
      rw [List.mem_cons] at known
      exact known.resolve_left (by simpa using apart)
    have same : (rest.flatMap fun other => others.filter fun violation => violation.file == other) =
        rest.flatMap fun other => violations.filter fun violation => violation.file == other := by
      refine List.flatMap_congr fun other listed => ?_
      rw [List.filter_filter]
      refine List.filter_congr fun violation _ => ?_
      by_cases here : violation.file = other
      · have apart : other ≠ file := fun equal => absent (equal ▸ listed)
        simp [here, apart]
      · simp [here]
    have parts := ih later remaining
    rw [same] at parts
    rw [List.flatMap_cons]
    exact (parts.append_left _).trans (List.filter_append_perm _ violations)

/-- Groups are named by the files in the order in which they first occur. -/
theorem map_fst_groups (violations : List Violation) :
    (groups violations).map Prod.fst = distinct (violations.map (·.file)) := by
  rw [groups, List.map_map]
  exact List.map_id _

/-- The groups together are all violations. -/
theorem flatMap_snd_groups_perm (violations : List Violation) :
    ((groups violations).flatMap Prod.snd).Perm violations := by
  have first := firstOccurrences_distinct (violations.map (·.file))
  have covered : ∀ violation ∈ violations,
      violation.file ∈ distinct (violations.map (·.file)) := by
    intro violation listed
    exact (first.mem_iff _).mpr (List.mem_map.mpr ⟨violation, listed, rfl⟩)
  have sorted : ((groups violations).flatMap Prod.snd).Perm
      ((distinct (violations.map (·.file))).flatMap fun file =>
        violations.filter fun violation => violation.file == file) := by
    rw [groups, List.flatMap_map]
    exact List.Perm.flatMap_left _ fun file _ => List.mergeSort_perm _ _
  exact sorted.trans (flatMap_filter_perm first.nodup covered)

end Groups

section Rows

/-- The lines of a text: a newline ends a line, together with a carriage return in front of it, and
what stands behind the last newline is a line unless it is empty. -/
inductive Lines : List Char → List (List Char) → Prop where
  /-- No text has no lines. -/
  | nothing : Lines [] []
  /-- The last line may have no end. -/
  | unended {line : List Char} : line ≠ [] → '\n' ∉ line → Lines line [line]
  /-- A line with its end. -/
  | ended {line rest : List Char} {lines : List (List Char)} : '\n' ∉ line →
    line.getLast? ≠ some '\r' → Lines rest lines → Lines (line ++ '\n' :: rest) (line :: lines)
  /-- A line with its end of two characters. -/
  | returned {line rest : List Char} {lines : List (List Char)} : '\n' ∉ line → Lines rest lines →
    Lines (line ++ '\r' :: '\n' :: rest) (line :: lines)

/-- A line without the carriage return at its end stands in front of the lines behind it. -/
theorem Lines.stripped {line rest : List Char} {lines : List (List Char)} (whole : '\n' ∉ line)
    (later : Lines rest lines) : Lines (line ++ '\n' :: rest) (stripReturn line :: lines) := by
  by_cases returns : line.getLast? = some '\r'
  · obtain ⟨front, rfl⟩ := List.getLast?_eq_some_iff.mp returns
    have bare : stripReturn (front ++ ['\r']) = front := by
      rw [stripReturn, if_pos returns, List.dropLast_concat]
    rw [bare, List.append_assoc]
    exact .returned (fun inside => whole (List.mem_append_left _ inside)) later
  · rw [stripReturn, if_neg returns]
    exact .ended whole returns later

/-- A line with its end comes first among the lines of a text. -/
theorem endedLines_append {line : List Char} (whole : '\n' ∉ line) (rest : List Char) :
    endedLines (line ++ '\n' :: rest) = stripReturn line :: endedLines rest := by
  have uncut : ∀ c ∈ line, (c == '\n') = false := by
    intro c inside
    rw [beq_eq_false_iff_ne]
    rintro rfl
    exact whole inside
  have pieces : splitOn '\n' (line ++ '\n' :: rest) = line :: splitOn '\n' rest :=
    splitBy_append_cons uncut rfl rest
  have filled : splitOn '\n' rest ≠ [] := splitBy_ne_nil _ rest
  obtain ⟨piece, more, split⟩ := List.exists_cons_of_ne_nil filled
  simp only [endedLines, pieces, split, List.dropLast_cons_cons, List.map_cons, List.cons_append,
    List.getLast?_cons_cons]

/-- A text comes apart into its lines. -/
theorem lines_endedLines (text : List Char) : Lines text (endedLines text) := by
  induction size : text.length using Nat.strong_induction_on generalizing text with
  | _ size ih =>
    by_cases ended : '\n' ∈ text
    · obtain ⟨line, rest, rfl, whole⟩ := List.eq_append_cons_of_mem ended
      rw [endedLines_append whole]
      refine .stripped whole (ih rest.length ?_ rest rfl)
      rw [← size, List.length_append, List.length_cons]
      omega
    · have single : splitOn '\n' text = [text] := by
        refine splitBy_of_uncut fun c inside => ?_
        rw [beq_eq_false_iff_ne]
        rintro rfl
        exact ended inside
      by_cases filled : text = []
      · subst filled
        exact .nothing
      · have alone : endedLines text = [text] := by simp [endedLines, single, filled]
        rw [alone]
        exact .unended filled ended

/-- A text as a report shows it with and without colors: between the terminal sequence that switches
an attribute on and the one that switches all of them off, or as it is. -/
def setOff (number : String) (text : String) : Bool → String
  | true => "\x1b[" ++ number ++ "m" ++ text ++ "\x1b[0m"
  | false => text

/-- A severity in a row of a report: its name in red, yellow or cyan. -/
def severityText : Severity → Bool → String
  | .error => setOff "31" "error"
  | .warning => setOff "33" "warning"
  | .info => setOff "36" "info"

/-- The rows that show a violation: where it is, how serious, what is wrong and by which rule in one
row, and below it the lines of its own snippet, six columns further in. -/
def Shows (colors : Bool) (violation : Violation) (rows : List String) : Prop :=
  ∃ lines, Lines (violation.snippet.getD "").toList lines ∧
    rows =
      ("  " ++ toString violation.line ++ ":" ++ toString violation.column ++ "  " ++
          severityText violation.severity colors ++ "  " ++ violation.message ++ "  " ++
          setOff "2" ("[" ++ violation.ruleId ++ "]") colors) ::
        lines.map fun line => "      " ++ String.ofList line

/-- Painting sets a text off by the attribute of its style. -/
theorem paint_eq (colors : Bool) (style : Style) (number text : String)
    (code : style.code = "\x1b[" ++ number ++ "m") :
    paint colors style text = setOff number text colors := by
  cases colors with
  | false => rfl
  | true =>
    have painted : paint true style text = style.code ++ text ++ resetCode := rfl
    rw [painted, code]
    rfl

/-- A severity is painted by its name. -/
theorem paint_severity (colors : Bool) (severity : Severity) :
    paint colors (severityStyle severity) severity.name = severityText severity colors := by
  cases severity with
  | error => exact paint_eq colors .red "31" "error" (by decide)
  | warning => exact paint_eq colors .yellow "33" "warning" (by decide)
  | info => exact paint_eq colors .cyan "36" "info" (by decide)

/-- The rows of a violation show it. -/
theorem shows_violationRows (colors : Bool) (violation : Violation) :
    Shows colors violation (violationRows colors violation) := by
  have rule : paint colors .dim ("[" ++ violation.ruleId ++ "]") =
      setOff "2" ("[" ++ violation.ruleId ++ "]") colors :=
    paint_eq colors .dim "2" _ (by decide)
  unfold violationRows
  rw [paint_severity, rule]
  cases snippet : violation.snippet with
  | none => exact ⟨[], by rw [snippet]; exact .nothing, rfl⟩
  | some text =>
    refine ⟨endedLines text.toList, ?_, rfl⟩
    rw [snippet]
    exact lines_endedLines text.toList

end Rows

/-- The text report goes through the files that violations were found in, each once and in the order
in which they first occur. Under the name of a file, which is bold with colors, stand exactly its
violations, in the order of their places and otherwise as they were found, each with the lines of its
own snippet. So every violation is listed once. Behind the files come changes, errors, warnings and
the summary. -/
theorem render_groups (colors : Bool) (verbose : Nat) (result : RunResult) :
    ∃ (groups : List (String × List Violation)) (shown : Violation → List String),
      (groups.map Prod.fst).Nodup ∧
      FirstOccurrences (groups.map Prod.fst) (result.violations.map (·.file)) ∧
      (∀ group ∈ groups,
        Arranged (result.violations.filter fun violation => violation.file == group.1) group.2) ∧
      (groups.flatMap Prod.snd).Perm result.violations ∧
      (∀ violation, Shows colors violation (shown violation)) ∧
      render colors verbose result =
        String.join (((groups.flatMap fun group =>
            setOff "1" group.1 colors :: group.2.flatMap shown ++ [""]) ++
          (changeRows colors result.changes ++ messageRows colors "Errors:" "✗" .red result.errors ++
            messageRows colors "Warnings:" "⚠" .yellow result.warnings ++
            summaryRows colors verbose result)).map (· ++ "\n")) := by
  have first := firstOccurrences_distinct (result.violations.map (·.file))
  rw [← map_fst_groups] at first
  refine ⟨groups result.violations, violationRows colors, first.nodup, first, ?_,
    flatMap_snd_groups_perm result.violations, shows_violationRows colors, ?_⟩
  · intro group listed
    obtain ⟨file, -, rfl⟩ := List.mem_map.mp listed
    exact arranged_mergeSort _
  · have heads (file : String) : setOff "1" file colors = paint colors .bold file :=
      (paint_eq colors .bold "1" file (by decide)).symm
    simp only [render, rows, List.append_assoc, heads]
    rfl

end CfmlTidy.Report.Text
