import Mathlib

/-!
# Texts by their first occurrence

A report goes through many entries and lists what they have in common once: the rules that were
broken, the files that are concerned. Such a list has every text that occurs and no other, and what
occurs earlier stands earlier. It can be grown entry by entry at its end, as a table is filled, or at
its front.
-/

namespace CfmlTidy.Report

/-- The texts of a list, each once, in the order in which they first occur. -/
structure FirstOccurrences (listed texts : List String) : Prop where
  /-- The texts are those that occur. -/
  mem_iff : ∀ text, text ∈ listed ↔ text ∈ texts
  /-- A text stands before those that occur later. -/
  ordered : listed.Pairwise fun earlier later => texts.idxOf earlier < texts.idxOf later

namespace FirstOccurrences

variable {listed texts : List String}

/-- No texts occur in no texts. -/
theorem nil : FirstOccurrences [] [] := ⟨fun _ => Iff.rfl, List.Pairwise.nil⟩

/-- No text is listed twice. -/
theorem nodup (first : FirstOccurrences listed texts) : listed.Nodup :=
  first.ordered.imp fun before same => absurd (same ▸ before) (lt_irrefl _)

/-- Where a text occurs first does not depend on the texts to come. -/
theorem ordered_append (first : FirstOccurrences listed texts) (more : List String) :
    listed.Pairwise fun earlier later =>
      (texts ++ more).idxOf earlier < (texts ++ more).idxOf later := by
  refine first.ordered.imp_of_mem fun {earlier later} here there before => ?_
  rwa [List.idxOf_append_of_mem ((first.mem_iff earlier).mp here),
    List.idxOf_append_of_mem ((first.mem_iff later).mp there)]

/-- A text that occurred before leaves the list as it is. -/
theorem append_known (first : FirstOccurrences listed texts) {text : String}
    (known : text ∈ listed) : FirstOccurrences listed (texts ++ [text]) where
  mem_iff other := by
    have occurred := (first.mem_iff text).mp known
    rw [first.mem_iff, List.mem_append, List.mem_singleton]
    exact ⟨Or.inl, fun either => either.elim id fun same => same ▸ occurred⟩
  ordered := first.ordered_append [text]

/-- A text that occurs for the first time goes to the end. -/
theorem append_new (first : FirstOccurrences listed texts) {text : String}
    (unknown : text ∉ listed) : FirstOccurrences (listed ++ [text]) (texts ++ [text]) where
  mem_iff other := by rw [List.mem_append, List.mem_append, first.mem_iff]
  ordered := by
    have absent : text ∉ texts := fun occurs => unknown ((first.mem_iff text).mpr occurs)
    refine List.pairwise_append.mpr
      ⟨first.ordered_append [text], List.pairwise_singleton _ _, ?_⟩
    intro earlier here last only
    obtain rfl := List.mem_singleton.mp only
    have occurs := (first.mem_iff earlier).mp here
    rw [List.idxOf_append_of_mem occurs, List.idxOf_append_of_notMem absent]
    exact Nat.lt_add_right _ (List.idxOf_lt_length_of_mem occurs)

/-- In front of a list, a text takes the first place and is struck from the others. -/
theorem cons (first : FirstOccurrences listed texts) (text : String) :
    FirstOccurrences (text :: listed.filter (· != text)) (text :: texts) where
  mem_iff other := by
    rw [List.mem_cons, List.mem_cons, List.mem_filter, first.mem_iff, bne_iff_ne]
    by_cases same : other = text <;> simp [same]
  ordered := by
    refine List.pairwise_cons.mpr ⟨fun other among => ?_, ?_⟩
    · have differs := bne_iff_ne.mp (List.mem_filter.mp among).2
      rw [List.idxOf_cons_self, List.idxOf_cons_ne _ differs.symm]
      exact Nat.succ_pos _
    · refine (first.ordered.filter _).imp_of_mem fun {earlier later} here there before => ?_
      have apart := bne_iff_ne.mp (List.mem_filter.mp here).2
      have differs := bne_iff_ne.mp (List.mem_filter.mp there).2
      rw [List.idxOf_cons_ne _ apart.symm, List.idxOf_cons_ne _ differs.symm]
      exact Nat.succ_lt_succ before

end FirstOccurrences

end CfmlTidy.Report
