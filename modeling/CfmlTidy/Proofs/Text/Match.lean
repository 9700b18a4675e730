import Mathlib
import CfmlTidy.Proofs.Text.Pattern

/-!
# Matches taken apart

Matches are found from left to right, and each of them starts where the one before has stopped or
later. A match of patterns one after another is cut between any two of them; what it takes and what
its groups record is what its two parts take and record. Cut down to single sets of characters, a
match is told by its characters.
-/

namespace CfmlTidy.Text.Pattern

section Order

variable {pattern : Pattern} {start stop : Cursor} {captures : List Capture}

/-- A match does not end before it starts. -/
theorem Matches.offset_le (matched : Matches pattern start stop captures) :
    start.offset ≤ stop.offset := by
  obtain ⟨taken, -, offset⟩ := matched.takes
  omega

/-- No match starts before the offset at which the search resumes, and none before the previous one
has stopped. -/
theorem findAllFrom_order (pattern : Pattern) (resume : Nat) (before : Option Char) (offset : Nat)
    (rest : List Char) :
    (∀ found ∈ pattern.findAllFrom resume before offset rest, resume ≤ found.start.offset) ∧
      (pattern.findAllFrom resume before offset rest).Pairwise fun first second =>
        first.stop.offset ≤ second.start.offset := by
  induction rest generalizing resume before offset with
  | nil =>
    rw [findAllFrom]
    split_ifs with skipped
    · simp
    · cases reported : pattern.matchAt? ⟨before, [], offset⟩ with
      | none => simp
      | some found =>
        have starts := (matches_of_matchAt? reported).1
        simpa [starts] using skipped
  | cons c rest ih =>
    rw [findAllFrom]
    split_ifs with skipped
    · exact ih resume (some c) (offset + c.utf8Size)
    · cases reported : pattern.matchAt? ⟨before, c :: rest, offset⟩ with
      | none => exact ih resume (some c) (offset + c.utf8Size)
      | some found =>
        obtain ⟨starts, matched⟩ := matches_of_matchAt? reported
        obtain ⟨late, apart⟩ := ih found.stop.offset (some c) (offset + c.utf8Size)
        have reached : resume ≤ found.start.offset := by
          rw [starts]
          exact Nat.le_of_not_lt skipped
        refine ⟨List.forall_mem_cons.mpr ⟨reached, fun later listed => ?_⟩,
          List.pairwise_cons.mpr ⟨late, apart⟩⟩
        exact (reached.trans matched.offset_le).trans (late later listed)

/-- Every match starts where the one before it has stopped, or later. -/
theorem pairwise_findAll (pattern : Pattern) (text : List Char) :
    (pattern.findAll text).Pairwise fun first second =>
      first.stop.offset ≤ second.start.offset :=
  (findAllFrom_order pattern 0 none 0 text).2

end Order

section Parts

variable {start middle stop : Cursor} {captures : List Capture} {taken : List Char}

/-- From one place to another, a text has some characters. -/
structure Spans (start stop : Cursor) (taken : List Char) : Prop where
  /-- They stand between the places. -/
  rest : start.rest = taken ++ stop.rest
  /-- The places are as far apart as their bytes. -/
  offset : stop.offset = start.offset + byteLength taken

/-- Nothing is spanned between a cursor and itself. -/
theorem Spans.nil (cursor : Cursor) : Spans cursor cursor [] := ⟨rfl, rfl⟩

/-- One character is spanned between a cursor and the next. -/
theorem Spans.single (before : Option Char) (c : Char) (rest : List Char) (offset : Nat) :
    Spans ⟨before, c :: rest, offset⟩ ⟨some c, rest, offset + c.utf8Size⟩ [c] := ⟨rfl, rfl⟩

/-- Spans in a row span their texts in a row. -/
theorem Spans.append {more : List Char} (front : Spans start middle taken)
    (back : Spans middle stop more) : Spans start stop (taken ++ more) := by
  refine ⟨by rw [front.rest, back.rest, List.append_assoc], ?_⟩
  rw [back.offset, front.offset, byteLength_append, Nat.add_assoc]

/-- What is recorded of a match that spans some characters are the characters. -/
theorem Spans.take_eq (spans : Spans start stop taken) :
    start.rest.take (start.rest.length - stop.rest.length) = taken := by
  rw [spans.rest, List.length_append, Nat.add_sub_cancel, List.take_left]

/-- A match of patterns one after another is cut between any two of them. -/
theorem Matches.of_all_append {front back : List Pattern}
    (matched : Matches (all (front ++ back)) start stop captures) :
    ∃ middle early late, captures = early ++ late ∧ Matches (all front) start middle early ∧
      Matches (all back) middle stop late := by
  induction front generalizing start captures with
  | nil => exact ⟨start, [], captures, rfl, .nothing, matched⟩
  | cons first others ih =>
    cases others with
    | nil =>
      cases back with
      | nil => exact ⟨stop, captures, [], by simp, matched, .nothing⟩
      | cons next more =>
        cases matched with
        | seq head tail => exact ⟨_, _, _, rfl, head, tail⟩
    | cons second more =>
      cases matched with
      | seq head tail =>
        obtain ⟨middle, early, late, rfl, inside, behind⟩ := ih tail
        exact ⟨middle, _, late, (List.append_assoc _ _ _).symm, .seq head inside, behind⟩

/-- A match of one character of a set takes that character. -/
theorem Matches.of_one {set : Char → Bool} (matched : Matches (.one set) start stop captures) :
    captures = [] ∧ ∃ c, set c = true ∧ Spans start stop [c] := by
  cases matched with
  | one member => exact ⟨rfl, _, member, .single _ _ _ _⟩

/-- A match of a run takes characters of its set. -/
theorem Matches.of_many {set : Char → Bool} (matched : Matches (.many set) start stop captures) :
    captures = [] ∧ ∃ taken, (∀ c ∈ taken, set c = true) ∧ Spans start stop taken := by
  generalize whole : Pattern.many set = pattern at matched
  induction matched with
  | nothing | one | lineStart | wordEdge | seq | left | right | group => contradiction
  | ends => exact ⟨rfl, [], by simp, .nil _⟩
  | more member _ ih =>
    obtain rfl := Pattern.many.inj whole
    obtain ⟨none, taken, members, spans⟩ := ih rfl
    refine ⟨none, _ :: taken, List.forall_mem_cons.mpr ⟨member, members⟩, ?_⟩
    exact (Spans.single _ _ _ _).append spans

/-- A match of a name takes a character that starts names and characters that continue them. -/
theorem Matches.of_name (matched : Matches name start stop captures) :
    captures = [] ∧ ∃ c more, isNameStart c = true ∧ (∀ c ∈ more, isNamePart c = true) ∧
      Spans start stop (c :: more) := by
  cases matched with
  | seq head tail =>
    obtain ⟨rfl, c, starts, first⟩ := head.of_one
    obtain ⟨rfl, more, members, others⟩ := tail.of_many
    exact ⟨rfl, c, more, starts, members, first.append others⟩

/-- What is recorded is recorded under the number of a group. -/
theorem Matches.group_mem {pattern : Pattern} (matched : Matches pattern start stop captures) :
    ∀ capture ∈ captures, capture.group ∈ pattern.groups.map Prod.fst := by
  induction matched with
  | nothing | one | ends | lineStart | wordEdge => simp
  | more _ _ ih => exact ih
  | seq _ _ headIh tailIh =>
    intro capture listed
    rw [groups, List.map_append, List.mem_append]
    exact (List.mem_append.mp listed).imp (headIh capture) (tailIh capture)
  | left _ ih =>
    intro capture listed
    rw [groups, List.map_append, List.mem_append]
    exact Or.inl (ih capture listed)
  | right _ ih =>
    intro capture listed
    rw [groups, List.map_append, List.mem_append]
    exact Or.inr (ih capture listed)
  | group _ ih =>
    intro capture listed
    rw [groups, List.map_append, List.mem_append]
    rcases List.mem_append.mp listed with within | own
    · exact Or.inl (ih capture within)
    · rw [List.mem_singleton.mp own]
      exact Or.inr (List.mem_singleton_self _)

end Parts

end CfmlTidy.Text.Pattern
