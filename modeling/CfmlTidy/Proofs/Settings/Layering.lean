import Mathlib
import CfmlTidy.Proofs.Json.Field
import CfmlTidy.Settings.Defaults

/-!
# Laws of layering

The objects of a document list their fields in ascending order of the keys (`Json.Ordered`), so an
object is known by what is found under each key. `lookup_mergeFields` says what that is after one
object is laid over another. A document laid over itself is itself, and a layer that is applied a
second time, from below or from above, changes nothing. Each of these goes by induction over the
upper document: it replaces what is below it unless both are objects, and then it is laid over it
key by key.
-/

namespace CfmlTidy

/-- A value all of whose objects list their fields in ascending order of the keys. -/
inductive Json.Ordered : Json → Prop where
  /-- Nothing. -/
  | null : Ordered .null
  /-- A truth value. -/
  | bool (value : Bool) : Ordered (.bool value)
  /-- A whole number. -/
  | int (value : Int) : Ordered (.int value)
  /-- Any other number. -/
  | real (bits : UInt64) : Ordered (.real bits)
  /-- A text. -/
  | str (value : String) : Ordered (.str value)
  /-- An array of ordered items. -/
  | arr {items : List Json} (each : ∀ item ∈ items, Ordered item) : Ordered (.arr items)
  /-- An object with ascending fields and ordered values. -/
  | obj {fields : List (String × Json)} (ascending : Json.Ascending fields)
    (each : ∀ field ∈ fields, Ordered field.2) : Ordered (.obj fields)

namespace Settings

open Json (Ascending Ordered mem_of_lookup)

variable {base overlay : Json} {fields upper : List (String × Json)}

/-- A value laid over what may stand under its key. -/
def laidOver (below : Option Json) (above : Json) : Json :=
  match below with
  | some value => merge value above
  | none => above

/-- Fields are laid over one by one. -/
theorem mergeFields_cons (fields rest : List (String × Json)) (key : String) (value : Json) :
    mergeFields fields ((key, value) :: rest) =
      mergeFields (Json.putField key (laidOver (fields.lookup key) value) fields) rest := by
  rw [mergeFields]
  rfl

/-- Objects are merged field by field. -/
theorem merge_objects (fields upper : List (String × Json)) :
    merge (.obj fields) (.obj upper) = .obj (mergeFields fields upper) := by
  rw [merge]

/-- Layering keeps fields ascending. -/
theorem ascending_mergeFields (ascending : Ascending fields) (upper : List (String × Json)) :
    Ascending (mergeFields fields upper) := by
  induction upper generalizing fields with
  | nil => rwa [mergeFields]
  | cons field rest ih =>
    rw [mergeFields_cons]
    exact ih (ascending.putField _ _)

/-- Under a key of the upper object its value is found, laid over what stood there, and under every
other key what stood there. -/
theorem lookup_mergeFields (ascending : Ascending upper) (fields : List (String × Json))
    (key : String) :
    (mergeFields fields upper).lookup key =
      match upper.lookup key with
      | some above => some (laidOver (fields.lookup key) above)
      | none => fields.lookup key := by
  induction upper generalizing fields with
  | nil => rw [mergeFields]; rfl
  | cons field rest ih =>
    obtain ⟨first, value⟩ := field
    obtain ⟨least, later⟩ := List.pairwise_cons.mp ascending
    rw [mergeFields_cons, ih later]
    by_cases same : key = first
    · have absent : rest.lookup key = none := Json.lookup_eq_none_of_lt (same ▸ least)
      rw [absent, same, List.lookup_cons_self, Json.lookup_putField_self]
    · have test : (key == first) = false := beq_eq_false_iff_ne.mpr same
      rw [List.lookup_cons, test, Json.lookup_putField_other same]

/-- What is laid over a value that is no object replaces it. -/
theorem merge_onto (apart : base.isObject = false) (overlay : Json) :
    merge base overlay = overlay := by
  cases overlay <;> cases base <;> first | contradiction | simp only [merge]

/-- A value that is no object replaces what is below it. -/
theorem merge_of (base : Json) (apart : overlay.isObject = false) :
    merge base overlay = overlay := by
  cases overlay <;> first | contradiction | simp only [merge]

/-- A field of the result is a field of the upper object, alone or laid over the field below it, or
it is a field of the lower object. -/
theorem of_mem_mergeFields {field : String × Json} (lower : Ascending fields)
    (ascending : Ascending upper) (listed : field ∈ mergeFields fields upper) :
    field ∈ upper ∨ field ∈ fields ∨
      ∃ below above, (field.1, below) ∈ fields ∧ (field.1, above) ∈ upper ∧
        field.2 = merge below above := by
  have found := (ascending_mergeFields lower upper).lookup_of_mem listed
  rw [lookup_mergeFields ascending] at found
  cases there : upper.lookup field.1 with
  | none =>
    rw [there] at found
    exact Or.inr (Or.inl (mem_of_lookup found))
  | some above =>
    rw [there] at found
    cases beneath : fields.lookup field.1 with
    | none =>
      rw [beneath] at found
      have alone : above = field.2 := Option.some.inj found
      exact Or.inl (mem_of_lookup (alone ▸ there))
    | some below =>
      rw [beneath] at found
      have laid : merge below above = field.2 := Option.some.inj found
      exact Or.inr (Or.inr
        ⟨below, above, mem_of_lookup beneath, mem_of_lookup there, laid.symm⟩)

/-- A document laid over itself is itself. -/
theorem merge_self {document : Json} (ordered : Ordered document) :
    merge document document = document := by
  induction ordered with
  | @obj fields ascending each ih =>
    rw [merge_objects]
    congr 1
    refine (ascending_mergeFields ascending fields).ext ascending fun key => ?_
    rw [lookup_mergeFields ascending]
    cases found : fields.lookup key with
    | none => rfl
    | some value => exact congrArg some (ih _ (mem_of_lookup found))
  | null | bool | int | real | str | arr => exact merge_of _ rfl

/-- A layer that is put below a second time changes nothing. What the first layering put under a key
is laid over the same value once more. -/
theorem merge_base_again (below : Ordered base) (above : Ordered overlay) :
    merge base (merge base overlay) = merge base overlay := by
  induction above generalizing base with
  | @obj upper ascending each ih =>
    cases below with
    | @obj fields lower inner =>
      have result := ascending_mergeFields lower upper
      rw [merge_objects, merge_objects]
      congr 1
      refine (ascending_mergeFields lower _).ext result fun key => ?_
      rw [lookup_mergeFields result, lookup_mergeFields ascending]
      cases there : upper.lookup key with
      | none =>
        cases beneath : fields.lookup key with
        | none => rfl
        | some under => exact congrArg some (merge_self (inner _ (mem_of_lookup beneath)))
      | some value =>
        cases beneath : fields.lookup key with
        | none => rfl
        | some under =>
          exact congrArg some
            (ih _ (mem_of_lookup there) (inner _ (mem_of_lookup beneath)))
    | null | bool | int | real | str | arr => rw [merge_onto rfl (.obj upper), merge_onto rfl]
  | null | bool | int | real | str | arr => rw [merge_of base rfl, merge_of base rfl]

/-- A layer that is put above a second time changes nothing. -/
theorem merge_overlay_again (below : Ordered base) (above : Ordered overlay) :
    merge (merge base overlay) overlay = merge base overlay := by
  induction above generalizing base with
  | @obj upper ascending each ih =>
    have replaced (apart : base.isObject = false) :
        merge (merge base (.obj upper)) (.obj upper) = merge base (.obj upper) := by
      rw [merge_onto apart, merge_self (Ordered.obj ascending each)]
    cases below with
    | @obj fields lower inner =>
      have result := ascending_mergeFields lower upper
      rw [merge_objects, merge_objects]
      congr 1
      refine (ascending_mergeFields result _).ext result fun key => ?_
      rw [lookup_mergeFields ascending, lookup_mergeFields ascending]
      cases there : upper.lookup key with
      | none => rfl
      | some value =>
        cases beneath : fields.lookup key with
        | none => exact congrArg some (merge_self (each _ (mem_of_lookup there)))
        | some under =>
          exact congrArg some
            (ih _ (mem_of_lookup there) (inner _ (mem_of_lookup beneath)))
    | null | bool | int | real | str | arr => exact replaced rfl
  | null | bool | int | real | str | arr => rw [merge_of _ rfl, merge_of base rfl]

end Settings

end CfmlTidy
