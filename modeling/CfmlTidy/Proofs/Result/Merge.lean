import Mathlib
import CfmlTidy.Proofs.Result.Counted
import CfmlTidy.Proofs.Result.Totals

/-!
# Merging results

Merging is associative, and the empty result is neutral on both sides. For lists and counters this
is plain. Facts and uses of parsers are maps, and the argument is the same for both: what is found
under a key after merging is known, and so are the keys in their order, and a map is determined by
these. Facts keep the place where they were stated first and the value that was stated last.

Lists of pairs are maps only when their keys are distinct, and a time is a time only within its
limit. `Valid` says so, and every result that can be built is valid.
-/

namespace CfmlTidy

namespace RunResult

/-- The keys of facts in order. -/
def keysOf (facts : List (String × Json)) : List String := facts.map Prod.fst

/-- State facts one by one. -/
def stateAll (facts more : List (String × Json)) : List (String × Json) :=
  more.foldl (fun facts fact => stateFact facts fact.1 fact.2) facts

section Facts

variable {facts more left right : List (String × Json)}

/-- A new key comes last, and a key that is there keeps its place. -/
theorem keysOf_stateFact (facts : List (String × Json)) (key : String) (value : Json) :
    keysOf (stateFact facts key value) =
      if key ∈ keysOf facts then keysOf facts else keysOf facts ++ [key] := by
  induction facts with
  | nil => rfl
  | cons fact rest ih =>
    obtain ⟨other, current⟩ := fact
    rw [stateFact]
    by_cases same : other = key
    · simp [keysOf, same]
    · have apart : key ≠ other := Ne.symm same
      rw [if_neg same]
      change other :: keysOf (stateFact rest key value) = _
      rw [ih]
      by_cases listed : key ∈ keysOf rest <;> simp_all [keysOf]

/-- A fact that is stated is found under its key, and all others as before. -/
theorem lookup_stateFact (facts : List (String × Json)) (key other : String) (value : Json) :
    (stateFact facts key value).lookup other =
      if other = key then some value else facts.lookup other := by
  induction facts with
  | nil =>
    by_cases same : other = key
    · simp [stateFact, same]
    · have test : (other == key) = false := beq_eq_false_iff_ne.mpr same
      simp [stateFact, List.lookup_cons, test, same]
  | cons fact rest ih =>
    obtain ⟨first, current⟩ := fact
    rw [stateFact]
    by_cases here : first = key
    · rw [if_pos here, here]
      by_cases same : other = key
      · simp [same]
      · have test : (other == key) = false := beq_eq_false_iff_ne.mpr same
        simp [List.lookup_cons, test, same]
    · rw [if_neg here, List.lookup_cons, List.lookup_cons, ih]
      by_cases same : other = key
      · have test : (other == first) = false := by
          apply beq_eq_false_iff_ne.mpr
          rw [same]
          exact Ne.symm here
        rw [test, if_pos same]
      · simp only [if_neg same]

/-- No fact is found under a key that is not listed. -/
theorem lookup_eq_none_of_unlisted {key : String} (unlisted : key ∉ keysOf facts) :
    facts.lookup key = none := by
  rw [List.lookup_eq_none_iff]
  intro fact member
  apply bne_iff_ne.mpr
  intro same
  exact unlisted (List.mem_map.mpr ⟨fact, member, same.symm⟩)

/-- Keys stated later follow in their order, unless they are there already. -/
theorem keysOf_stateAll (facts : List (String × Json)) (distinct : (keysOf more).Nodup) :
    keysOf (stateAll facts more) =
      keysOf facts ++ (keysOf more).filter fun key => key ∉ keysOf facts := by
  induction more generalizing facts with
  | nil => exact (List.append_nil _).symm
  | cons fact rest ih =>
    obtain ⟨key, value⟩ := fact
    obtain ⟨fresh, later⟩ := List.nodup_cons.mp distinct
    have step : stateAll facts ((key, value) :: rest) =
        stateAll (stateFact facts key value) rest := rfl
    have keys : keysOf ((key, value) :: rest) = key :: keysOf rest := rfl
    rw [step, ih _ later, keysOf_stateFact, keys]
    by_cases listed : key ∈ keysOf facts
    · simp [listed]
    · have others : (keysOf rest).filter (fun other => other ∉ keysOf facts ++ [key]) =
          (keysOf rest).filter fun other => other ∉ keysOf facts := by
        apply List.filter_congr
        intro other member
        have apart : other ≠ key := by
          rintro rfl
          exact fresh member
        simp [apart]
      rw [if_neg listed, others, List.append_assoc, List.filter_cons_of_pos (by simpa using listed)]
      rfl

/-- What was stated later is found, and else what was there. -/
theorem lookup_stateAll (facts : List (String × Json)) (distinct : (keysOf more).Nodup)
    (key : String) :
    (stateAll facts more).lookup key = (more.lookup key).or (facts.lookup key) := by
  induction more generalizing facts with
  | nil => rfl
  | cons fact rest ih =>
    obtain ⟨first, value⟩ := fact
    obtain ⟨fresh, later⟩ := List.nodup_cons.mp distinct
    have step : stateAll facts ((first, value) :: rest) =
        stateAll (stateFact facts first value) rest := rfl
    rw [step, ih _ later, lookup_stateFact, List.lookup_cons]
    by_cases same : key = first
    · rw [same, lookup_eq_none_of_unlisted fresh]
      simp
    · have test : (key == first) = false := beq_eq_false_iff_ne.mpr same
      rw [test, if_neg same]

/-- Stating facts with different keys over others with different keys leaves the keys different. -/
theorem nodup_stateAll (first : (keysOf facts).Nodup) (second : (keysOf more).Nodup) :
    (keysOf (stateAll facts more)).Nodup := by
  rw [keysOf_stateAll facts second]
  apply List.Nodup.append first (second.filter _)
  intro key there added
  simpa [there] using (List.mem_filter.mp added).2

/-- Facts with the same distinct keys in the same order, under which the same is found, are the
same. -/
theorem facts_ext (keys : keysOf left = keysOf right) (distinct : (keysOf left).Nodup)
    (found : ∀ key, left.lookup key = right.lookup key) : left = right := by
  induction left generalizing right with
  | nil =>
    cases right with
    | nil => rfl
    | cons fact rest => simp [keysOf] at keys
  | cons fact rest ih =>
    obtain ⟨key, value⟩ := fact
    cases right with
    | nil => simp [keysOf] at keys
    | cons fact others =>
      obtain ⟨other, entry⟩ := fact
      obtain ⟨rfl, tails⟩ : key = other ∧ keysOf rest = keysOf others := by
        simpa [keysOf] using keys
      obtain ⟨fresh, later⟩ := List.nodup_cons.mp distinct
      have heads : some value = some entry := by simpa using found key
      obtain rfl := Option.some.inj heads
      congr 1
      refine ih tails later fun name => ?_
      by_cases same : name = key
      · have unlisted : key ∉ keysOf others := tails ▸ fresh
        rw [same, lookup_eq_none_of_unlisted fresh, lookup_eq_none_of_unlisted unlisted]
      · have test : (name == key) = false := beq_eq_false_iff_ne.mpr same
        have both := found name
        rwa [List.lookup_cons, List.lookup_cons, test] at both

/-- Stating facts over facts is associative. -/
theorem stateAll_assoc {first second third : List (String × Json)} (one : (keysOf first).Nodup)
    (two : (keysOf second).Nodup) (three : (keysOf third).Nodup) :
    stateAll (stateAll first second) third = stateAll first (stateAll second third) := by
  have joined := nodup_stateAll two three
  apply facts_ext
  · rw [keysOf_stateAll _ three, keysOf_stateAll _ two, keysOf_stateAll _ joined,
      keysOf_stateAll _ three, List.filter_append, List.filter_filter, List.append_assoc]
    congr 2
    apply List.filter_congr
    intro key _
    by_cases listed : key ∈ keysOf first <;> simp [listed]
  · exact nodup_stateAll (nodup_stateAll one two) three
  · intro key
    rw [lookup_stateAll _ three, lookup_stateAll _ two, lookup_stateAll _ joined,
      lookup_stateAll _ three, Option.or_assoc]

/-- Facts stated over none are these facts. -/
theorem stateAll_nil_left (distinct : (keysOf facts).Nodup) : stateAll [] facts = facts := by
  have keys : keysOf (stateAll [] facts) = keysOf facts := by
    rw [keysOf_stateAll [] distinct]
    simp [keysOf]
  refine facts_ext keys (keys ▸ distinct) fun key => ?_
  rw [lookup_stateAll [] distinct]
  simp

end Facts

end RunResult

namespace Stats

section Usage

variable {usage entries : List (String × Nat)}

/-- The uses of a parser add up. -/
theorem lookup_tally_of_ascending (usage : List (String × Nat))
    (ascending : Json.Ascending entries) (parser : String) :
    (tally usage entries).lookup parser =
      Option.merge (· + ·) (usage.lookup parser) (entries.lookup parser) := by
  induction entries generalizing usage with
  | nil => cases found : usage.lookup parser <;> simp [tally, found]
  | cons entry rest ih =>
    obtain ⟨least, later⟩ := List.pairwise_cons.mp ascending
    have step : tally usage (entry :: rest) = tally (addUsage usage entry.1 entry.2) rest := rfl
    rw [step, ih _ later, lookup_addUsage, List.lookup_cons]
    by_cases same : entry.1 = parser
    · have missing : rest.lookup parser = none := by
        apply Json.lookup_eq_none_of_lt
        rw [← same]
        exact least
      have test : (parser == entry.1) = true := beq_iff_eq.mpr same.symm
      rw [if_pos same, missing, test]
      cases usage.lookup parser <;> simp
    · have test : (parser == entry.1) = false := beq_eq_false_iff_ne.mpr (Ne.symm same)
      rw [if_neg same, test]

/-- Tallies over tallies are associative. -/
theorem tally_assoc {first second third : List (String × Nat)} (one : Json.Ascending first)
    (two : Json.Ascending second) (three : Json.Ascending third) :
    tally (tally first second) third = tally first (tally second third) := by
  have joined := ascending_tally two third
  have left := ascending_tally (ascending_tally one second) third
  refine left.ext (ascending_tally one _) fun parser => ?_
  rw [lookup_tally_of_ascending _ three, lookup_tally_of_ascending _ two,
    lookup_tally_of_ascending _ joined, lookup_tally_of_ascending _ three]
  cases first.lookup parser <;> cases second.lookup parser <;> cases third.lookup parser <;>
    simp [Nat.add_assoc]

/-- A tally over nothing is that tally. -/
theorem tally_nil_left (ascending : Json.Ascending entries) : tally [] entries = entries := by
  refine (ascending_tally List.Pairwise.nil entries).ext ascending fun parser => ?_
  rw [lookup_tally_of_ascending [] ascending]
  cases entries.lookup parser <;> simp

end Usage

/-- Statistics whose uses of parsers are a map in ascending order and whose time is within its
limit. -/
structure Valid (stats : Stats) : Prop where
  /-- Parsers ascend strictly. -/
  usage : Json.Ascending stats.parserUsage
  /-- The time is within its limit. -/
  time : stats.executionTime ≤ maxTime

section Merge

variable {first second third : Stats}

/-- The empty statistics are valid. -/
theorem valid_empty : Valid .empty := ⟨List.Pairwise.nil, Nat.zero_le _⟩

/-- Merging keeps statistics valid. -/
theorem Valid.merge (one : Valid first) : Valid (first.merge second) :=
  ⟨ascending_tally one.usage _, Nat.min_le_right _ _⟩

/-- The time is cut off at the same limit however it is added up. -/
theorem merge_assoc (one : Valid first) (two : Valid second) (three : Valid third) :
    (first.merge second).merge third = first.merge (second.merge third) := by
  have time (a b c limit : Nat) :
      min (min (a + b) limit + c) limit = min (a + min (b + c) limit) limit := by omega
  have usage := tally_assoc one.usage two.usage three.usage
  simp only [tally] at usage
  simp only [merge, Nat.add_assoc, time, usage]

/-- The empty statistics merged with others are the others. -/
theorem empty_merge (valid : Valid first) : empty.merge first = first := by
  have usage := tally_nil_left valid.usage
  have time : min (0 + first.executionTime) maxTime = first.executionTime := by
    have within := valid.time
    omega
  simp only [tally] at usage
  simp only [merge, empty, Nat.zero_add, usage] at time ⊢
  rw [time]

/-- Statistics merged with the empty ones are as they were. -/
theorem merge_empty (valid : Valid first) : first.merge empty = first := by
  have time : min (first.executionTime + 0) maxTime = first.executionTime := by
    have within := valid.time
    omega
  simp only [merge, empty, Nat.add_zero, List.foldl_nil] at time ⊢
  rw [time]

end Merge

end Stats

namespace RunResult

/-- A result whose facts are a map and whose statistics are valid. -/
structure Valid (result : RunResult) : Prop where
  /-- No fact is listed twice. -/
  facts : (keysOf result.metadata).Nodup
  /-- The counters are valid. -/
  stats : result.stats.Valid

variable {result first second third : RunResult}

/-- Merging keeps results valid. -/
theorem Valid.merge (one : Valid first) (two : Valid second) : Valid (first.merge second) :=
  ⟨nodup_stateAll one.facts two.facts, one.stats.merge⟩

/-- Adding violations keeps a result valid. -/
theorem Valid.addViolations (valid : Valid result) (violations : List Violation) :
    Valid (result.addViolations violations) := by
  rw [addViolations_eq, Stats.countAll_eq]
  exact ⟨valid.facts, valid.stats.usage, valid.stats.time⟩

/-- Filtering keeps a result valid. -/
theorem Valid.retainSeverity (valid : Valid result) (minimum : Severity) :
    Valid (result.retainSeverity minimum) := by
  have stats : (result.retainSeverity minimum).stats =
      result.stats.resetViolations.countAll (result.retainSeverity minimum).violations := rfl
  rw [Stats.countAll_eq] at stats
  refine ⟨valid.facts, ?_, ?_⟩
  · rw [stats]
    exact valid.stats.usage
  · rw [stats]
    exact valid.stats.time

/-- Every result that can be built is valid. -/
theorem Reachable.valid (reachable : Reachable result) : Valid result := by
  induction reachable with
  | empty => exact ⟨List.nodup_nil, Stats.valid_empty⟩
  | addViolation _ violation ih => exact ih.addViolations [violation]
  | addViolations _ violations ih => exact ih.addViolations violations
  | addChange _ _ ih => exact ⟨ih.facts, ih.stats.usage, ih.stats.time⟩
  | addError _ _ ih => exact ⟨ih.facts, ih.stats⟩
  | addWarning _ _ ih => exact ⟨ih.facts, ih.stats⟩
  | setMetadata _ key value ih =>
    have alone : (keysOf [(key, value)]).Nodup := List.nodup_singleton key
    exact ⟨nodup_stateAll ih.facts alone, ih.stats⟩
  | retainSeverity _ minimum ih => exact ih.retainSeverity minimum
  | merge _ _ one two => exact one.merge two
  | countFile _ ih => exact ⟨ih.facts, ih.stats.usage, ih.stats.time⟩
  | countParser _ parser ih =>
    exact ⟨ih.facts, ih.stats.usage.putField parser _, ih.stats.time⟩
  | setTime _ _ ih => exact ⟨ih.facts, ih.stats.usage, Nat.min_le_right _ _⟩

/-- Valid results are a monoid under merging. Of two facts with one key the place of the first and
the value of the second are kept. -/
theorem merge_monoid (one : Valid first) (two : Valid second) (three : Valid third) :
    (first.merge second).merge third = first.merge (second.merge third) ∧
      RunResult.empty.merge first = first ∧
      first.merge .empty = first ∧
      Valid (first.merge second) ∧
      keysOf (first.merge second).metadata =
        keysOf first.metadata ++
          (keysOf second.metadata).filter (fun key => key ∉ keysOf first.metadata) ∧
      ∀ key, (first.merge second).metadata.lookup key =
        (second.metadata.lookup key).or (first.metadata.lookup key) := by
  refine ⟨?_, ?_, ?_, one.merge two, keysOf_stateAll _ two.facts, lookup_stateAll _ two.facts⟩
  · have facts := stateAll_assoc one.facts two.facts three.facts
    have stats := Stats.merge_assoc one.stats two.stats three.stats
    simp only [stateAll] at facts
    simp only [merge, List.append_assoc, facts, stats]
  · have facts := stateAll_nil_left one.facts
    have stats := Stats.empty_merge one.stats
    simp only [stateAll] at facts
    simp only [merge, empty, List.nil_append, facts, stats]
  · have stats := Stats.merge_empty one.stats
    simp only [merge, empty, List.append_nil, List.foldl_nil, stats]

/-- Three parts of a run, the first of which takes all the time there is. The second states the mode
again, which keeps its place and takes its new value. -/
theorem merge_monoid_saturated :
    let linted := (RunResult.empty.setMetadata "mode" (.str "lint")).updateStats
      (·.setTime (Stats.maxTime * 1000000))
    let formatted := ((RunResult.empty.setMetadata "dryRun" (.bool true)).setMetadata "mode"
      (.str "format")).updateStats (·.setTime 5000000)
    let last := RunResult.empty.updateStats (·.countParser "regex")
    (linted.merge formatted).merge last = linted.merge (formatted.merge last) ∧
      (linted.merge formatted).stats.executionTime = Stats.maxTime ∧
      keysOf (linted.merge formatted).metadata = ["mode", "dryRun"] ∧
      (linted.merge formatted).metadata.lookup "mode" = some (.str "format") := by
  intro linted formatted last
  have one : Valid linted := ((Reachable.empty.setMetadata _ _).setTime _).valid
  have two : Valid formatted :=
    (((Reachable.empty.setMetadata _ _).setMetadata _ _).setTime _).valid
  have three : Valid last := (Reachable.empty.countParser _).valid
  obtain ⟨assoc, -, -, -, keys, found⟩ := merge_monoid one two three
  refine ⟨assoc, by decide +kernel, ?_, ?_⟩
  · rw [keys]
    decide +kernel
  · rw [found]
    rfl

end RunResult

end CfmlTidy
