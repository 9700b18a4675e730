import Mathlib
import CfmlTidy.Proofs.Settings.Layering
import CfmlTidy.Settings.Basic

/-!
# Values in layered documents

What is found at a path after one document is laid over another. Where the upper document has a
value, that value is found, laid over the one below it if both are objects. Where it has none, the
deepest value that it has on the way (`Deepest`) decides: an object lets what is below show through,
and any other value hides it. Only the first of these goes by induction over the keys. The rest
follows since keys lead to a value in two parts, to the deepest value and on from there.
-/

namespace CfmlTidy

open Json (Ascending mem_of_lookup)

variable {document overlay value : Json} {key : String} {keys way : List String}

namespace Json

/-- A field of an ordered document is ordered. -/
theorem Ordered.of_field? (ordered : document.Ordered) (found : document.field? key = some value) :
    value.Ordered := by
  cases ordered with
  | obj ascending each => exact each _ (mem_of_lookup found)
  | null | bool | int | real | str | arr => contradiction

/-- An object with one field is in order when its value is. -/
theorem Ordered.single {field : String × Json} (inner : field.2.Ordered) : Ordered (.obj [field]) :=
  Ordered.obj (List.pairwise_singleton _ _) (List.forall_mem_singleton.mpr inner)

/-- An object with two fields is in order when their keys and their values are. -/
theorem Ordered.pair {first second : String × Json} (ascending : first.1 < second.1)
    (one : first.2.Ordered) (two : second.2.Ordered) : Ordered (.obj [first, second]) :=
  Ordered.obj (List.pairwise_pair.mpr ascending)
    (List.forall_mem_cons.mpr ⟨one, List.forall_mem_singleton.mpr two⟩)

/-- A list of texts is ordered. -/
theorem Ordered.strs (values : List String) : Ordered (.strs values) := by
  refine Ordered.arr fun item listed => ?_
  obtain ⟨value, -, rfl⟩ := List.mem_map.mp listed
  exact Ordered.str value

/-- A value that is no object has no fields. -/
theorem field?_of_not_isObject (apart : value.isObject = false) (key : String) :
    value.field? key = none := by
  cases value <;> first | contradiction | rfl

end Json

namespace Settings

/-- Keys lead on from where the first of them lead. -/
theorem valueAt?_append (document : Json) (front rest : List String) :
    valueAt? document (front ++ rest) =
      (valueAt? document front).bind fun inner => valueAt? inner rest := by
  induction front generalizing document with
  | nil => rfl
  | cons key front ih =>
    rw [List.cons_append, valueAt?, valueAt?, Option.bind_assoc]
    exact Option.bind_congr fun inner _ => ih inner

/-- A value found in an ordered document is ordered. -/
theorem ordered_of_valueAt? (ordered : document.Ordered)
    (found : valueAt? document keys = some value) : value.Ordered := by
  induction keys generalizing document with
  | nil => exact Option.some.inj found ▸ ordered
  | cons key rest ih =>
    obtain ⟨inner, here, later⟩ := Option.bind_eq_some_iff.mp found
    exact ih (ordered.of_field? here) later

/-- Under a key of an upper object its value is found, laid over what stood there, and under every
other key what stood there. -/
theorem field?_merge {upper : List (String × Json)} (ascending : Ascending upper) (base : Json)
    (key : String) :
    (merge base (.obj upper)).field? key =
      match upper.lookup key with
      | some above => some (laidOver (base.field? key) above)
      | none => base.field? key := by
  cases base with
  | obj fields =>
    rw [merge_objects]
    exact lookup_mergeFields ascending fields key
  | null | bool | int | real | str | arr =>
    rw [merge_onto rfl]
    change upper.lookup key = _
    cases upper.lookup key <;> rfl

/-- No key leads on from a value that is no object. -/
theorem valueAt?_cons_of_not_isObject (apart : document.isObject = false) (key : String)
    (rest : List String) : valueAt? document (key :: rest) = none := by
  rw [valueAt?, Json.field?_of_not_isObject apart]
  rfl

/-- What keys lead to in an object with one field. -/
theorem valueAt?_single (key : String) (inner : Json) (first : String) (rest : List String)
    {value : Json} :
    valueAt? (.obj [(key, inner)]) (first :: rest) = some value ↔
      first = key ∧ valueAt? inner rest = some value := by
  rw [valueAt?, Json.field?, List.lookup_cons]
  by_cases same : first = key
  · subst same
    simp
  · have differs : (first == key) = false := beq_eq_false_iff_ne.mpr same
    simp [differs, same]

/-- A value that is no object is found as it is, whatever is below it. -/
theorem laidOver_of (below : Option Json) (apart : value.isObject = false) :
    laidOver below value = value := by
  cases below with
  | none => rfl
  | some under => exact merge_of under apart

/-- A value of the upper document is found, laid over the value below it. -/
theorem valueAt?_merge_of_found (ordered : overlay.Ordered) (base : Json)
    (found : valueAt? overlay keys = some value) :
    valueAt? (merge base overlay) keys = some (laidOver (valueAt? base keys) value) := by
  induction keys generalizing base overlay with
  | nil =>
    obtain rfl := Option.some.inj found
    rfl
  | cons key rest ih =>
    obtain ⟨inner, here, later⟩ := Option.bind_eq_some_iff.mp found
    have within := ordered.of_field? here
    cases ordered with
    | obj ascending each =>
      rw [valueAt?, field?_merge ascending, show List.lookup key _ = some inner from here, valueAt?]
      cases base.field? key with
      | none => exact later
      | some below => exact ih within below later
    | null | bool | int | real | str | arr => contradiction

/-- The last keys that lead to a value of a document on the way along some keys. -/
structure Deepest (document : Json) (keys way : List String) (value : Json) : Prop where
  /-- They are the first of the keys. -/
  onTheWay : way <+: keys
  /-- They lead to the value. -/
  found : valueAt? document way = some value
  /-- No more of the keys lead to a value. -/
  last : ∀ further, further <+: keys → (valueAt? document further).isSome → further <+: way

/-- There is a deepest value along any keys. -/
theorem exists_deepest (document : Json) (keys : List String) :
    ∃ way value, Deepest document keys way value := by
  induction keys generalizing document with
  | nil => exact ⟨[], document, List.prefix_rfl, rfl, fun further onTheWay _ => onTheWay⟩
  | cons key rest ih =>
    cases here : document.field? key with
    | none =>
      refine ⟨[], document, List.nil_prefix, rfl, fun further onTheWay some => ?_⟩
      rcases List.prefix_cons_iff.mp onTheWay with rfl | ⟨shorter, rfl, -⟩
      · exact List.prefix_rfl
      · rw [valueAt?, here] at some
        contradiction
    | some inner =>
      obtain ⟨way, value, deepest⟩ := ih inner
      refine ⟨key :: way, value, ?_, ?_, fun further onTheWay some => ?_⟩
      · exact (List.prefix_cons_inj key).mpr deepest.onTheWay
      · rw [valueAt?, here]
        exact deepest.found
      · rcases List.prefix_cons_iff.mp onTheWay with rfl | ⟨shorter, rfl, early⟩
        · exact List.nil_prefix
        · rw [valueAt?, here] at some
          exact (List.prefix_cons_inj key).mpr (deepest.last shorter early some)

/-- Where keys lead to no value, the deepest value on the way has nothing under the next key. -/
theorem Deepest.next (deepest : Deepest document keys way value)
    (absent : valueAt? document keys = none) :
    ∃ key rest, keys = way ++ key :: rest ∧ value.field? key = none := by
  obtain ⟨tail, rfl⟩ := deepest.onTheWay
  cases tail with
  | nil =>
    rw [List.append_nil, deepest.found] at absent
    contradiction
  | cons key rest =>
    refine ⟨key, rest, rfl, ?_⟩
    by_contra present
    obtain ⟨inner, here⟩ := Option.ne_none_iff_exists'.mp present
    have further : valueAt? document (way ++ [key]) = some inner := by
      rw [valueAt?_append, deepest.found, Option.bind_some, valueAt?, here]
      rfl
    have longer := deepest.last (way ++ [key]) ⟨rest, by simp⟩ (by rw [further]; rfl)
    simpa using longer.length_le

/-- Below an object of the upper document, where that has nothing, the value below shows through. -/
theorem valueAt?_merge_of_object (ordered : overlay.Ordered) (base : Json)
    (deepest : Deepest overlay keys way value) (absent : valueAt? overlay keys = none)
    (object : value.isObject = true) :
    valueAt? (merge base overlay) keys = valueAt? base keys := by
  obtain ⟨key, rest, rfl, missing⟩ := deepest.next absent
  have within := ordered_of_valueAt? ordered deepest.found
  rw [valueAt?_append, valueAt?_append, valueAt?_merge_of_found ordered base deepest.found,
    Option.bind_some, valueAt?]
  cases within with
  | @obj upper ascending each =>
    have nothing : upper.lookup key = none := missing
    cases valueAt? base way with
    | none =>
      rw [show (laidOver none (.obj upper)).field? key = none from nothing]
      rfl
    | some below =>
      rw [show laidOver (some below) (.obj upper) = merge below (.obj upper) from rfl,
        field?_merge ascending, nothing]
      rfl
  | null | bool | int | real | str | arr => contradiction

/-- Below any other value of the upper document nothing is found. -/
theorem valueAt?_merge_of_not_isObject (ordered : overlay.Ordered) (base : Json)
    (deepest : Deepest overlay keys way value) (absent : valueAt? overlay keys = none)
    (apart : value.isObject = false) : valueAt? (merge base overlay) keys = none := by
  obtain ⟨key, rest, rfl, -⟩ := deepest.next absent
  rw [valueAt?_append, valueAt?_merge_of_found ordered base deepest.found, Option.bind_some,
    laidOver_of _ apart, valueAt?_cons_of_not_isObject apart]

/-- A document says something about keys: inside it they lead to a value, or the first of them lead
to a value that is no object. -/
def Mentions (document : Json) (keys : List String) : Prop :=
  ∃ way value, way ≠ [] ∧ way <+: keys ∧ valueAt? document way = some value ∧
    (way = keys ∨ value.isObject = false)

/-- Whether a document mentions a path can be told by looking it up. -/
instance (document : Json) (keys : List String) : Decidable (Mentions document keys) :=
  decidable_of_iff (∃ way ∈ keys.inits, way ≠ [] ∧
      ∃ value ∈ valueAt? document way, way = keys ∨ value.isObject = false) <| by
    simp only [Mentions, List.mem_inits, Option.mem_def]
    grind

/-- A value without fields mentions nothing. -/
theorem not_mentions_of_bare (bare : ∀ key, document.field? key = none) (keys : List String) :
    ¬ Mentions document keys := by
  rintro ⟨way, value, filled, -, found, -⟩
  obtain ⟨first, rest, rfl⟩ := List.exists_cons_of_ne_nil filled
  rw [valueAt?, bare] at found
  contradiction

/-- What says nothing about keys says nothing about what they lead on to. -/
theorem not_mentions_append (filled : keys ≠ []) (silent : ¬ Mentions document keys)
    (rest : List String) : ¬ Mentions document (keys ++ rest) := by
  rintro ⟨way, value, some, onTheWay, found, ends⟩
  rcases List.prefix_or_prefix_of_prefix onTheWay (List.prefix_append keys rest) with early | late
  · refine silent ⟨way, value, some, early, found, ends.imp_left fun whole => ?_⟩
    exact early.eq_of_length_le (whole ▸ by simp)
  · obtain ⟨tail, rfl⟩ := late
    rw [valueAt?_append] at found
    obtain ⟨inner, here, -⟩ := Option.bind_eq_some_iff.mp found
    exact silent ⟨keys, inner, filled, List.prefix_rfl, here, Or.inl rfl⟩

/-- Keys that an upper object does not mention lead to what they led to below it. -/
theorem valueAt?_merge_of_not_mentions (ordered : overlay.Ordered) (base : Json)
    (object : overlay.isObject = true) (filled : keys ≠ []) (silent : ¬ Mentions overlay keys) :
    valueAt? (merge base overlay) keys = valueAt? base keys := by
  obtain ⟨way, value, deepest⟩ := exists_deepest overlay keys
  have absent : valueAt? overlay keys = none := by
    by_contra present
    obtain ⟨above, found⟩ := Option.ne_none_iff_exists'.mp present
    exact silent ⟨keys, above, filled, List.prefix_rfl, found, Or.inl rfl⟩
  refine valueAt?_merge_of_object ordered base deepest absent ?_
  by_cases top : way = []
  · have whole := deepest.found
    rw [top] at whole
    exact Option.some.inj whole ▸ object
  · by_contra apart
    exact silent ⟨way, value, top, deepest.onTheWay, deepest.found,
      Or.inr (Bool.eq_false_of_not_eq_true apart)⟩

/-- What is found at a path after a document is laid over the settings. A value of the upper
document is found: two objects laid over each other, any other value as it is. Where the upper
document has no value, the deepest one on the way decides: below an object the settings answer as
before, and below any other value nothing is found. -/
theorem get?_withOverlay (settings : Settings) (ordered : overlay.Ordered) (path : String) :
    (∀ above, valueAt? overlay (keysOf path) = some above →
      (∀ lower upper, settings.get? path = some (.obj lower) → above = .obj upper →
        (settings.withOverlay overlay).get? path = some (merge (.obj lower) (.obj upper))) ∧
      ((¬ ∃ below, settings.get? path = some below ∧ below.isObject = true ∧
          above.isObject = true) →
        (settings.withOverlay overlay).get? path = some above)) ∧
    (valueAt? overlay (keysOf path) = none →
      (∃ way value, Deepest overlay (keysOf path) way value) ∧
      ∀ way value, Deepest overlay (keysOf path) way value →
        (settings.withOverlay overlay).get? path =
          if value.isObject = true then settings.get? path else none) := by
  refine ⟨fun above found => ?_, fun absent => ⟨exists_deepest _ _, fun way value deepest => ?_⟩⟩
  · have laid : (settings.withOverlay overlay).get? path =
        some (laidOver (settings.get? path) above) :=
      valueAt?_merge_of_found ordered settings.document found
    refine ⟨?_, fun unlike => ?_⟩
    · rintro lower upper below rfl
      rw [laid, below]
      rfl
    · rw [laid]
      congr 1
      cases below : settings.get? path with
      | none => rfl
      | some value =>
        by_cases object : value.isObject = true
        · have apart : above.isObject = false := by
            by_contra both
            exact unlike ⟨value, below, object, Bool.eq_true_of_not_eq_false both⟩
          exact merge_of value apart
        · exact merge_onto (Bool.eq_false_of_not_eq_true object) above
  · split_ifs with object
    · exact valueAt?_merge_of_object ordered settings.document deepest absent object
    · exact valueAt?_merge_of_not_isObject ordered settings.document deepest absent
        (Bool.eq_false_of_not_eq_true object)

/-- Settings with two groups. -/
def grouped : Settings where
  document := .obj [("linting", .obj [("enabled", .bool true), ("ruleSet", .str "strict")]),
    ("parser", .obj [("primary", .str "lucee")])]
  baseDir := "/work"
  source := none

/-- A document that changes a value in one group and puts a number in place of the other. -/
def conflicting : Json :=
  .obj [("linting", .obj [("enabled", .bool false)]), ("parser", .int 7)]

/-- The conflicting document is ordered. -/
theorem ordered_conflicting : conflicting.Ordered :=
  .pair (by decide) (.single (.bool false)) (.int 7)

/-- One group is changed in one of its values and keeps the other, and nothing is left of the group
that gives way to a number. -/
theorem get?_withOverlay_conflicting :
    conflicting.Ordered ∧
      (grouped.withOverlay conflicting).get? "linting" =
        some (.obj [("enabled", .bool false), ("ruleSet", .str "strict")]) ∧
      (grouped.withOverlay conflicting).get? "linting.enabled" = some (.bool false) ∧
      (grouped.withOverlay conflicting).get? "linting.ruleSet" = some (.str "strict") ∧
      (grouped.withOverlay conflicting).get? "parser.primary" = none := by
  have group : Deepest conflicting ["linting", "ruleSet"] ["linting"]
      (.obj [("enabled", .bool false)]) := by
    refine ⟨by decide, rfl, fun further onTheWay => ?_⟩
    revert further
    simp only [← List.mem_inits]
    decide
  have number : Deepest conflicting ["parser", "primary"] ["parser"] (.int 7) := by
    refine ⟨by decide, rfl, fun further onTheWay => ?_⟩
    revert further
    simp only [← List.mem_inits]
    decide
  refine ⟨ordered_conflicting, ?_, ?_, ?_, ?_⟩
  · exact ((get?_withOverlay grouped ordered_conflicting "linting").1 _ rfl).1 _ _ rfl rfl
  · refine ((get?_withOverlay grouped ordered_conflicting "linting.enabled").1 _ rfl).2 ?_
    rintro ⟨below, -, -, object⟩
    contradiction
  · exact ((get?_withOverlay grouped ordered_conflicting "linting.ruleSet").2 rfl).2 _ _ group
  · exact ((get?_withOverlay grouped ordered_conflicting "parser.primary").2 rfl).2 _ _ number

end Settings

end CfmlTidy
