import Mathlib
import CfmlTidy.Proofs.Json.Field
import CfmlTidy.Result.Run

/-!
# Totals of statistics

Statistics of the parts of a run are merged one after the other. What comes out is a total that does
not know the order of the parts: every counter is a sum, the time is a sum cut off at its limit once
and for all, and the uses of a parser add up under its tag.
-/

namespace CfmlTidy.Stats

/-- Uses of parsers added one by one. -/
def tally (usage entries : List (String × Nat)) : List (String × Nat) :=
  entries.foldl (fun usage entry => addUsage usage entry.1 entry.2) usage

/-- The uses of one parser together. -/
def usesOf (parser : String) (entries : List (String × Nat)) : Nat :=
  ((entries.filter fun entry => entry.1 == parser).map Prod.snd).sum

section Usage

variable {usage entries others : List (String × Nat)}

/-- Uses of a parser are added to its own, and all others are as before. -/
theorem lookup_addUsage (usage : List (String × Nat)) (parser other : String) (count : Nat) :
    (addUsage usage parser count).lookup other =
      if parser = other then some ((usage.lookup other).getD 0 + count)
      else usage.lookup other := by
  rw [addUsage]
  split_ifs with same
  · rw [same, Json.lookup_putField_self]
  · exact Json.lookup_putField_other (Ne.symm same) _ usage

/-- A parser that is not listed has no uses. -/
theorem usesOf_eq_zero {parser : String} (absent : parser ∉ entries.map Prod.fst) :
    usesOf parser entries = 0 := by
  have none : entries.filter (fun entry => entry.1 == parser) = [] := by
    rw [List.filter_eq_nil_iff]
    intro entry listed same
    exact absent (List.mem_map.mpr ⟨entry, listed, beq_iff_eq.mp same⟩)
  rw [usesOf, none]
  rfl

/-- A parser is found with its uses together once one of them was added. -/
theorem lookup_tally (usage entries : List (String × Nat)) (parser : String) :
    (tally usage entries).lookup parser =
      if parser ∈ entries.map Prod.fst then
        some ((usage.lookup parser).getD 0 + usesOf parser entries)
      else usage.lookup parser := by
  induction entries generalizing usage with
  | nil => rfl
  | cons entry rest ih =>
    have step : (tally usage (entry :: rest)).lookup parser =
        (tally (addUsage usage entry.1 entry.2) rest).lookup parser := rfl
    rw [step, ih, lookup_addUsage]
    simp only [List.map_cons, List.mem_cons]
    by_cases same : entry.1 = parser
    · have more : usesOf parser (entry :: rest) = entry.2 + usesOf parser rest := by
        simp [usesOf, same]
      by_cases later : parser ∈ rest.map Prod.fst
      · rw [if_pos later, if_pos same, if_pos (Or.inr later), more, Option.getD_some,
          Nat.add_assoc]
      · rw [if_neg later, if_pos same, if_pos (Or.inl same.symm), more, usesOf_eq_zero later,
          Nat.add_zero]
    · have kept : usesOf parser (entry :: rest) = usesOf parser rest := by
        simp [usesOf, same]
      simp only [if_neg same, Ne.symm same, false_or, kept]

/-- A tally keeps its parsers in ascending order. -/
theorem ascending_tally (ascending : Json.Ascending usage) (entries : List (String × Nat)) :
    Json.Ascending (tally usage entries) := by
  induction entries generalizing usage with
  | nil => exact ascending
  | cons entry rest ih => exact ih (ascending.putField _ _)

/-- The order in which uses are added does not matter. -/
theorem tally_perm (ascending : Json.Ascending usage) (same : entries.Perm others) :
    tally usage entries = tally usage others := by
  refine (ascending_tally ascending entries).ext (ascending_tally ascending others) fun parser => ?_
  have uses : usesOf parser entries = usesOf parser others := ((same.filter _).map _).sum_eq
  have listed := (same.map Prod.fst).mem_iff (a := parser)
  rw [lookup_tally, lookup_tally, uses]
  simp only [listed]

/-- Putting a number under a key replaces the number that was found there. -/
theorem sum_putField {fields : List (String × Nat)} (ascending : Json.Ascending fields)
    (key : String) (value : Nat) :
    ((Json.putField key value fields).map Prod.snd).sum + (fields.lookup key).getD 0 =
      (fields.map Prod.snd).sum + value := by
  induction fields with
  | nil => simp [Json.putField]
  | cons field rest ih =>
    obtain ⟨least, later⟩ := List.pairwise_cons.mp ascending
    rw [Json.putField]
    split_ifs with before same
    · have missing : (field :: rest).lookup key = none := by
        apply Json.lookup_eq_none_of_lt
        intro entry listed
        rcases List.mem_cons.mp listed with rfl | within
        · exact before
        · exact before.trans (least entry within)
      rw [missing]
      simp only [List.map_cons, List.sum_cons, Option.getD_none]
      omega
    · have test : (key == field.1) = true := beq_iff_eq.mpr same
      rw [List.lookup_cons, test]
      simp only [List.map_cons, List.sum_cons, Option.getD_some]
      omega
    · have test : (key == field.1) = false := beq_eq_false_iff_ne.mpr same
      have tail := ih later
      rw [List.lookup_cons, test]
      simp only [List.map_cons, List.sum_cons]
      omega

/-- Uses that are added up are neither lost nor counted twice. -/
theorem sum_tally (ascending : Json.Ascending usage) (entries : List (String × Nat)) :
    ((tally usage entries).map Prod.snd).sum =
      (usage.map Prod.snd).sum + (entries.map Prod.snd).sum := by
  induction entries generalizing usage with
  | nil => rfl
  | cons entry rest ih =>
    have step : tally usage (entry :: rest) = tally (addUsage usage entry.1 entry.2) rest := rfl
    have put := sum_putField ascending entry.1 ((usage.lookup entry.1).getD 0 + entry.2)
    have kept : Json.Ascending (addUsage usage entry.1 entry.2) := ascending.putField _ _
    rw [step, ih kept, addUsage, List.map_cons, List.sum_cons]
    omega

end Usage

/-- The statistics of all parts of a run together. -/
def total (parts : List Stats) : Stats where
  filesProcessed := (parts.map filesProcessed).sum
  totalViolations := (parts.map totalViolations).sum
  errorCount := (parts.map errorCount).sum
  warningCount := (parts.map warningCount).sum
  infoCount := (parts.map infoCount).sum
  formattingChanges := (parts.map formattingChanges).sum
  executionTime := min (parts.map executionTime).sum maxTime
  parserUsage := tally [] (parts.flatMap parserUsage)

/-- One more part is added to the total by merging it. -/
theorem total_concat (parts : List Stats) (part : Stats) :
    total (parts ++ [part]) = (total parts).merge part := by
  have time (sum more limit : Nat) :
      min (sum + more) limit = min (min sum limit + more) limit := by omega
  simp only [total, merge, tally, List.map_append, List.map_cons, List.map_nil, List.sum_append,
    List.sum_cons, List.sum_nil, Nat.add_zero, List.flatMap_append, List.flatMap_cons,
    List.flatMap_nil, List.append_nil, List.foldl_append, ← time]

/-- A part in which nothing was counted leaves the total as it is. -/
theorem total_concat_empty (parts : List Stats) : total (parts ++ [empty]) = total parts := by
  simp [total, empty]

/-- The uses of all parsers add up over the parts. -/
theorem sum_parserUsage_total (parts : List Stats) :
    ((total parts).parserUsage.map Prod.snd).sum =
      (parts.map fun stats => (stats.parserUsage.map Prod.snd).sum).sum := by
  rw [total, sum_tally List.Pairwise.nil, List.map_nil, List.sum_nil, Nat.zero_add,
    List.map_flatMap, List.flatMap_def, List.sum_flatten, List.map_map]
  rfl

/-- The order of the parts does not matter. -/
theorem total_perm {parts others : List Stats} (same : parts.Perm others) :
    total parts = total others := by
  have sums (counter : Stats → Nat) : (parts.map counter).sum = (others.map counter).sum :=
    (same.map counter).sum_eq
  have usage : tally [] (parts.flatMap parserUsage) = tally [] (others.flatMap parserUsage) :=
    tally_perm List.Pairwise.nil (same.flatMap_right parserUsage)
  simp only [total, sums, usage]

end CfmlTidy.Stats
