import Mathlib
import CfmlTidy.Json.Basic

/-!
# Fields kept in order

Fields that are put one by one stand in strictly ascending order of their keys. Such a list is a
map: it is known by what is found under each key, whatever the order in which the fields were put.
-/

namespace CfmlTidy.Json

variable {α : Type} {key other : String} {value : α} {fields left right : List (String × α)}

/-- Fields whose keys ascend strictly. -/
def Ascending (fields : List (String × α)) : Prop :=
  fields.Pairwise fun first second => first.1 < second.1

/-- A field that was put has its value. -/
theorem lookup_putField_self (key : String) (value : α) (fields : List (String × α)) :
    (putField key value fields).lookup key = some value := by
  induction fields with
  | nil => simp [putField]
  | cons first rest ih =>
    rw [putField]
    split_ifs with before same
    · simp
    · simp
    · have differs : (key == first.1) = false := by simpa using same
      rw [List.lookup_cons, differs, ih]

/-- Putting a field leaves every other as it is. -/
theorem lookup_putField_other (apart : other ≠ key) (value : α) (fields : List (String × α)) :
    (putField key value fields).lookup other = fields.lookup other := by
  have differs : (other == key) = false := by simpa using apart
  induction fields with
  | nil => simp [putField, List.lookup_cons, differs]
  | cons first rest ih =>
    rw [putField]
    split_ifs with before same
    · rw [List.lookup_cons, differs]
    · rw [List.lookup_cons, List.lookup_cons, differs, ← same, differs]
    · rw [List.lookup_cons, List.lookup_cons, ih]

/-- The keys after a put are the key and the keys before. -/
theorem of_mem_putField {field : String × α} (listed : field ∈ putField key value fields) :
    field = (key, value) ∨ field ∈ fields := by
  induction fields with
  | nil => exact Or.inl (List.mem_singleton.mp listed)
  | cons first rest ih =>
    rw [putField] at listed
    split_ifs at listed with before same
    · exact List.mem_cons.mp listed
    · rcases List.mem_cons.mp listed with here | later
      · exact Or.inl here
      · exact Or.inr (List.mem_cons_of_mem first later)
    · rcases List.mem_cons.mp listed with rfl | later
      · exact Or.inr List.mem_cons_self
      · rcases ih later with here | within
        · exact Or.inl here
        · exact Or.inr (List.mem_cons_of_mem first within)

/-- A key above all others is put at the end. -/
theorem putField_of_lt (above : ∀ field ∈ fields, field.1 < key) (value : α) :
    putField key value fields = fields ++ [(key, value)] := by
  induction fields with
  | nil => rfl
  | cons first rest ih =>
    obtain ⟨here, later⟩ := List.forall_mem_cons.mp above
    rw [putField, if_neg here.asymm, if_neg here.ne', ih later]
    rfl

/-- A put keeps fields ascending. -/
theorem Ascending.putField (ascending : Ascending fields) (key : String) (value : α) :
    Ascending (putField key value fields) := by
  induction fields with
  | nil => exact List.pairwise_singleton _ _
  | cons first rest ih =>
    obtain ⟨least, others⟩ := List.pairwise_cons.mp ascending
    rw [Json.putField]
    split_ifs with before same
    · refine List.pairwise_cons.mpr ⟨?_, ascending⟩
      intro field listed
      rcases List.mem_cons.mp listed with rfl | later
      · exact before
      · exact before.trans (least field later)
    · rw [same]
      exact List.pairwise_cons.mpr ⟨least, others⟩
    · refine List.pairwise_cons.mpr ⟨?_, ih others⟩
      intro field listed
      rcases of_mem_putField listed with rfl | within
      · exact lt_of_le_of_ne (not_lt.mp before) (Ne.symm same)
      · exact least field within

/-- A key below all others is not found among them. -/
theorem lookup_eq_none_of_lt (below : ∀ field ∈ fields, key < field.1) :
    fields.lookup key = none := by
  rw [List.lookup_eq_none_iff]
  intro field listed
  simpa using (below field listed).ne

/-- What is found under a key is listed with it. -/
theorem mem_of_lookup (found : fields.lookup key = some value) : (key, value) ∈ fields := by
  obtain ⟨front, back, rfl, -⟩ := List.lookup_eq_some_iff.mp found
  exact List.mem_append_right front List.mem_cons_self

/-- What is listed among ascending fields is found under its key. -/
theorem Ascending.lookup_of_mem {field : String × α} (ascending : Ascending fields)
    (listed : field ∈ fields) : fields.lookup field.1 = some field.2 := by
  obtain ⟨front, back, rfl⟩ := List.append_of_mem listed
  refine List.lookup_eq_some_iff.mpr ⟨front, back, rfl, ?_⟩
  intro other earlier
  have below := (List.pairwise_append.mp ascending).2.2 other earlier field List.mem_cons_self
  exact bne_iff_ne.mpr below.ne'

/-- No key is found below the first. -/
theorem Ascending.head_le {field : String × α} (ascending : Ascending (field :: fields))
    (found : (field :: fields).lookup key = some value) : field.1 ≤ key := by
  by_contra above
  have less := not_le.mp above
  have least := (List.pairwise_cons.mp ascending).1
  have missing : (field :: fields).lookup key = none := by
    apply lookup_eq_none_of_lt
    intro entry listed
    rcases List.mem_cons.mp listed with rfl | within
    · exact less
    · exact less.trans (least entry within)
  rw [missing] at found
  contradiction

/-- Ascending fields under whose keys the same is found are the same. The first keys are equal: each
is found on the other side, so neither is below the other. -/
theorem Ascending.ext (first : Ascending left) (second : Ascending right)
    (found : ∀ key, left.lookup key = right.lookup key) : left = right := by
  induction left generalizing right with
  | nil =>
    cases right with
    | nil => rfl
    | cons field rest =>
      obtain ⟨key, value⟩ := field
      have absent := found key
      rw [List.lookup_cons_self] at absent
      contradiction
  | cons field rest ih =>
    obtain ⟨key, value⟩ := field
    cases right with
    | nil =>
      have absent := found key
      rw [List.lookup_cons_self] at absent
      contradiction
    | cons field others =>
      obtain ⟨other, entry⟩ := field
      obtain ⟨least, later⟩ := List.pairwise_cons.mp first
      obtain ⟨lowest, behind⟩ := List.pairwise_cons.mp second
      have here : ((other, entry) :: others).lookup key = some value := by
        rw [← found, List.lookup_cons_self]
      have there : ((key, value) :: rest).lookup other = some entry := by
        rw [found, List.lookup_cons_self]
      obtain rfl : key = other := le_antisymm (first.head_le there) (second.head_le here)
      obtain rfl : entry = value := by simpa using here
      congr 1
      refine ih later behind fun name => ?_
      by_cases head : name = key
      · rw [head, lookup_eq_none_of_lt least, lookup_eq_none_of_lt lowest]
      · have differs : (name == key) = false := by simpa using head
        have tails := found name
        rwa [List.lookup_cons, List.lookup_cons, differs] at tails

end CfmlTidy.Json
