import Mathlib
import CfmlTidy.Source.Bracket

/-!
# Closing brackets and counts

A bracket is closed where the brackets of its kind, counted from it on, are first closed as often as
they are opened. Up to there, and to the end when there is no such place, no front of the text
closes more than it opens. The depth that the search carries is what the front of the text before it
has left open.
-/

namespace CfmlTidy.Source

/-- No front of a text closes more brackets of a kind than it opens and `depth` others that were
open before. -/
def StaysOpen (opening closing : Char) (depth : Nat) (text : List Char) : Prop :=
  ∀ front, front <+: text → front.count closing ≤ front.count opening + depth

section Counts

variable {opening closing c : Char} {depth : Nat} {text inside after : List Char}

/-- A bracket stays open over no text. -/
theorem StaysOpen.nil (opening closing : Char) (depth : Nat) :
    StaysOpen opening closing depth [] := by
  intro front starts
  rw [List.prefix_nil.mp starts]
  exact Nat.zero_le _

/-- Of a text with a character in front of it, only the fronts with that character matter. -/
theorem StaysOpen.cons
    (bound : ∀ front, front <+: text →
      (c :: front).count closing ≤ (c :: front).count opening + depth) :
    StaysOpen opening closing depth (c :: text) := by
  intro front starts
  cases front with
  | nil => exact Nat.zero_le _
  | cons first others =>
    obtain ⟨rfl, within⟩ := List.cons_prefix_cons.mp starts
    exact bound others within

/-- A bracket that opens lets one more be closed behind it. -/
theorem StaysOpen.opens (stays : StaysOpen opening closing (depth + 1) text)
    (differ : opening ≠ closing) : StaysOpen opening closing depth (opening :: text) := by
  refine .cons fun front within => ?_
  rw [List.count_cons_of_ne differ, List.count_cons_self]
  have bound := stays front within
  omega

/-- A bracket that closes needs one that was open before it. -/
theorem StaysOpen.closes (stays : StaysOpen opening closing depth text)
    (differ : opening ≠ closing) : StaysOpen opening closing (depth + 1) (closing :: text) := by
  refine .cons fun front within => ?_
  rw [List.count_cons_self, List.count_cons_of_ne differ.symm]
  have bound := stays front within
  omega

/-- Any other character changes nothing. -/
theorem StaysOpen.other (stays : StaysOpen opening closing depth text) (notOpening : c ≠ opening)
    (notClosing : c ≠ closing) : StaysOpen opening closing depth (c :: text) := by
  refine .cons fun front within => ?_
  rw [List.count_cons_of_ne notClosing, List.count_cons_of_ne notOpening]
  exact stays front within

/-- A text is cut at the bracket at which, together with those open before, as many brackets are
closed as are opened, and at none earlier. -/
theorem counts_of_splitAtClose (differ : opening ≠ closing)
    (found : splitAtClose opening closing depth text = some (inside, after)) :
    inside.count closing = inside.count opening + depth ∧
      StaysOpen opening closing depth inside := by
  fun_induction splitAtClose opening closing depth text generalizing inside with
  | case1 => contradiction
  | case2 depth rest ih =>
    obtain ⟨⟨front, back⟩, later, same⟩ := Option.map_eq_some_iff.mp found
    obtain ⟨rfl, rfl⟩ := Prod.mk.inj same
    obtain ⟨counts, stays⟩ := ih later
    refine ⟨?_, stays.opens differ⟩
    rw [List.count_cons_of_ne differ, List.count_cons_self, counts, Nat.add_right_comm,
      Nat.add_assoc]
  | case3 rest _ =>
    obtain ⟨rfl, rfl⟩ := Prod.mk.inj (Option.some.inj found)
    exact ⟨rfl, .nil _ _ _⟩
  | case4 rest _ outer ih =>
    obtain ⟨⟨front, back⟩, later, same⟩ := Option.map_eq_some_iff.mp found
    obtain ⟨rfl, rfl⟩ := Prod.mk.inj same
    obtain ⟨counts, stays⟩ := ih later
    refine ⟨?_, stays.closes differ⟩
    rw [List.count_cons_self, List.count_cons_of_ne differ.symm, counts, Nat.add_assoc]
  | case5 depth c rest notOpening notClosing ih =>
    obtain ⟨⟨front, back⟩, later, same⟩ := Option.map_eq_some_iff.mp found
    obtain ⟨rfl, rfl⟩ := Prod.mk.inj same
    obtain ⟨counts, stays⟩ := ih later
    rw [List.count_cons_of_ne notClosing, List.count_cons_of_ne notOpening]
    exact ⟨counts, stays.other notOpening notClosing⟩

/-- A text is not cut only when none of its fronts closes a bracket that was open before it. -/
theorem staysOpen_of_splitAtClose (differ : opening ≠ closing)
    (missing : splitAtClose opening closing depth text = none) :
    StaysOpen opening closing depth text := by
  fun_induction splitAtClose opening closing depth text with
  | case1 depth => exact .nil _ _ _
  | case2 depth rest ih => exact (ih (Option.map_eq_none_iff.mp missing)).opens differ
  | case3 => contradiction
  | case4 rest _ outer ih => exact (ih (Option.map_eq_none_iff.mp missing)).closes differ
  | case5 depth c rest notOpening notClosing ih =>
    exact (ih (Option.map_eq_none_iff.mp missing)).other notOpening notClosing

end Counts

end CfmlTidy.Source
