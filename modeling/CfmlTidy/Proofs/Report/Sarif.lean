import Mathlib
import CfmlTidy.Proofs.Report.Occurrence
import CfmlTidy.Report.Sarif
import CfmlTidy.Settings.Document

/-!
# Results and the table of rules

Every result of a log names its rule twice, by its id and by a place in the table of rules. Places
are handed out while the table still grows. They stay right because the table only grows at its end:
what stands at a place once stands there in the table of the finished log. That the table lists the
rules in the order in which they first occur is kept by every step.
-/

namespace CfmlTidy.Report.Sarif

open CfmlTidy.Settings (valueAt?)

variable {id : String} {table seen : List String} {violations : List Violation}

/-- A known id keeps its place, and a new one is placed at the end. -/
theorem placeIn_cases (id : String) (table : List String) :
    (id ∈ table ∧ placeIn id table = (table.idxOf id, table)) ∨
      (id ∉ table ∧ placeIn id table = (table.length, table ++ [id])) := by
  unfold placeIn
  cases found : table.findIdx? (· == id) with
  | some index =>
    obtain ⟨inside, place⟩ := List.findIdx?_eq_some_iff_findIdx_eq.mp found
    obtain rfl : table.idxOf id = index := place
    exact Or.inl ⟨List.idxOf_lt_length_iff.mp inside, rfl⟩
  | none =>
    refine Or.inr ⟨fun known => ?_, rfl⟩
    have refused := List.findIdx?_eq_none_iff.mp found id known
    simp at refused

/-- A table grows at its end only. -/
theorem prefix_placeIn (id : String) (table : List String) : table <+: (placeIn id table).2 := by
  rcases placeIn_cases id table with ⟨-, same⟩ | ⟨-, same⟩
  · rw [same]
  · rw [same]
    exact List.prefix_append table [id]

/-- An id stands at the place that it is given. -/
theorem getElem?_placeIn (id : String) (table : List String) :
    (placeIn id table).2[(placeIn id table).1]? = some id := by
  rcases placeIn_cases id table with ⟨known, same⟩ | ⟨-, same⟩
  · rw [same, List.getElem?_eq_getElem (List.idxOf_lt_length_of_mem known), List.getElem_idxOf]
  · rw [same, List.getElem?_concat_length]

/-- Placing the next id keeps the order of first occurrence. -/
theorem firstOccurrences_placeIn (first : FirstOccurrences table seen) (id : String) :
    FirstOccurrences (placeIn id table).2 (seen ++ [id]) := by
  rcases placeIn_cases id table with ⟨known, same⟩ | ⟨unknown, same⟩
  · rw [same]
    exact first.append_known known
  · rw [same]
    exact first.append_new unknown

/-- The rule of the first violation is placed, and the others find the table with it. -/
theorem assign_cons (table : List String) (violation : Violation) (rest : List Violation) :
    assign table (violation :: rest) =
      (((placeIn violation.ruleId table).1, violation) ::
          (assign (placeIn violation.ruleId table).2 rest).1,
        (assign (placeIn violation.ruleId table).2 rest).2) := rfl

/-- Assigning places only adds to the end of the table. -/
theorem prefix_assign (table : List String) (violations : List Violation) :
    table <+: (assign table violations).2 := by
  induction violations generalizing table with
  | nil => exact List.prefix_refl table
  | cons violation rest ih => exact (prefix_placeIn violation.ruleId table).trans (ih _)

/-- Every violation is given a place, in order. -/
theorem map_snd_assign (table : List String) (violations : List Violation) :
    (assign table violations).1.map Prod.snd = violations := by
  induction violations generalizing table with
  | nil => rfl
  | cons violation rest ih => rw [assign_cons, List.map_cons, ih]

/-- In the table at the end, the id of every violation stands at the place that was handed out. -/
theorem getElem?_assign {entry : Nat × Violation} (listed : entry ∈ (assign table violations).1) :
    (assign table violations).2[entry.1]? = some entry.2.ruleId := by
  induction violations generalizing table with
  | nil => contradiction
  | cons violation rest ih =>
    rw [assign_cons] at listed ⊢
    rcases List.mem_cons.mp listed with rfl | later
    · obtain ⟨more, grown⟩ := prefix_assign (placeIn violation.ruleId table).2 rest
      have here := getElem?_placeIn violation.ruleId table
      rw [← grown, List.getElem?_append_left (List.getElem?_eq_some_iff.mp here).1, here]
    · exact ih later

-- A rule that occurs again is given the place that it has.
example : (assign [] (["B", "A", "B"].map fun rule =>
    .located rule "" .info "a.cfm" ⟨1, 1⟩)).1.map Prod.fst = [0, 1, 0] := by decide

/-- The table holds the rules of all violations by first occurrence. -/
theorem firstOccurrences_assign (first : FirstOccurrences table seen)
    (violations : List Violation) :
    FirstOccurrences (assign table violations).2 (seen ++ violations.map (·.ruleId)) := by
  induction violations generalizing table seen with
  | nil => rwa [List.map_nil, List.append_nil]
  | cons violation rest ih =>
    have later := ih (firstOccurrences_placeIn first violation.ruleId)
    rwa [List.append_assoc, List.singleton_append] at later

/-- The items of an array. -/
def itemsOf? : Json → Option (List Json)
  | .arr items => some items
  | _ => none

/-- The only run of a log. -/
def runOf? (log : Json) : Option Json :=
  match (log.field? "runs").bind itemsOf? with
  | some [run] => some run
  | _ => none

/-- The table of rules of a log. -/
def rulesOf? (log : Json) : Option (List Json) :=
  (runOf? log).bind fun run => (valueAt? run ["tool", "driver", "rules"]).bind itemsOf?

/-- The results of a log. -/
def resultsOf? (log : Json) : Option (List Json) :=
  (runOf? log).bind fun run => (run.field? "results").bind itemsOf?

/-- An item of a log that tells a violation and names its rule in a table. -/
structure Tells (rules : List Json) (item : Json) (violation : Violation) : Prop where
  /-- The rule by its id. -/
  rule : item.field? "ruleId" = some (.str violation.ruleId)
  /-- The rule by its place: an entry with that id stands there. -/
  place : ∃ index entry, item.field? "ruleIndex" = some (.nat index) ∧
    rules[index]? = some entry ∧ entry.field? "id" = some (.str violation.ruleId)
  /-- How serious it is. -/
  severity : item.field? "level" = some (.str (level violation.severity))
  /-- What is wrong. -/
  message : valueAt? item ["message", "text"] = some (.str violation.message)
  /-- Where it is. -/
  location : ∃ location, item.field? "locations" = some (.arr [location]) ∧
    valueAt? location ["physicalLocation", "artifactLocation", "uri"] =
      some (.str (uri violation.file)) ∧
    valueAt? location ["physicalLocation", "region"] =
      some (.obj [("startLine", .nat violation.line), ("startColumn", .nat violation.column),
        ("endLine", .nat violation.endLine), ("endColumn", .nat violation.endColumn)])

/-- The rules of the log are those of the table. -/
theorem rulesOf?_log (result : RunResult) :
    rulesOf? (log result) = some ((assign [] result.violations).2.map ruleJson) := rfl

/-- The results of the log are the violations with their places. -/
theorem resultsOf?_log (result : RunResult) :
    resultsOf? (log result) = some ((assign [] result.violations).1.map resultJson) := rfl

/-- The result of a violation tells it when its place is that of its rule. -/
theorem tells_resultJson {entry : Nat × Violation} (placed : table[entry.1]? = some entry.2.ruleId) :
    Tells (table.map ruleJson) (resultJson entry) entry.2 where
  rule := rfl
  place := ⟨entry.1, ruleJson entry.2.ruleId, rfl, by rw [List.getElem?_map, placed]; rfl, rfl⟩
  severity := rfl
  message := rfl
  location := ⟨_, rfl, rfl, rfl⟩

/-- The table of rules of a log has the ids that occur among the violations, each once and in the
order in which they first occur. The results tell the violations one by one in their order, and at
the place that a result names for its rule stands the entry with the id that it names. -/
theorem log_consistent (result : RunResult) :
    ∃ ids rules results, rulesOf? (log result) = some rules ∧
      resultsOf? (log result) = some results ∧
      rules.map (·.field? "id") = ids.map (fun id => some (.str id)) ∧
      ids.Nodup ∧ FirstOccurrences ids (result.violations.map (·.ruleId)) ∧
      List.Forall₂ (Tells rules) results result.violations := by
  have first := firstOccurrences_assign .nil result.violations
  rw [List.nil_append] at first
  refine ⟨(assign [] result.violations).2, _, _, rulesOf?_log result, resultsOf?_log result, ?_,
    first.nodup, first, ?_⟩
  · rw [List.map_map]
    rfl
  · have paired : List.Forall₂ (Tells ((assign [] result.violations).2.map ruleJson))
        ((assign [] result.violations).1.map resultJson)
        ((assign [] result.violations).1.map Prod.snd) := by
      rw [List.forall₂_map_left_iff, List.forall₂_map_right_iff, List.forall₂_same]
      exact fun entry listed => tells_resultJson (getElem?_assign listed)
    rwa [map_snd_assign] at paired

end CfmlTidy.Report.Sarif
