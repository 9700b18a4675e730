import Mathlib
import CfmlTidy.Proofs.Json.RoundTrip
import CfmlTidy.Proofs.Settings.Layering
import CfmlTidy.Settings.Loader

/-!
# Exported settings

Settings that are exported and read again are the same settings. Reading lays the document over the
defaults a second time, which changes nothing since it is already laid over them. That the text is
read back at all rests on what `Json.Readable` says, and a document laid over the defaults can be
read back whenever the document itself can.
-/

namespace CfmlTidy

namespace Json

/-- A value that can be read back is ordered. -/
theorem Readable.ordered {levels : Nat} {value : Json} (readable : Readable levels value) :
    Ordered value := by
  induction readable with
  | null => exact Ordered.null
  | bool value => exact Ordered.bool value
  | int => exact Ordered.int _
  | real => exact Ordered.real _
  | str value => exact Ordered.str value
  | arr each ih => exact Ordered.arr ih
  | obj ascending each ih => exact Ordered.obj ascending ih

/-- Fields put in order keep what holds of each of them. -/
theorem readable_object {levels : Nat} {fields : List (String × Json)}
    (each : ∀ field ∈ fields, Readable levels field.2) : Readable (levels + 1) (object fields) := by
  have sorted (start : List (String × Json)) (ascending : Ascending start)
      (before : ∀ field ∈ start, Readable levels field.2) :
      Readable (levels + 1)
        (obj (fields.foldl (fun sorted field => putField field.1 field.2 sorted) start)) := by
    induction fields generalizing start with
    | nil => exact Readable.obj ascending before
    | cons field rest ih =>
      obtain ⟨here, later⟩ := List.forall_mem_cons.mp each
      refine ih later _ (ascending.putField _ _) fun other listed => ?_
      rcases of_mem_putField listed with rfl | earlier
      · exact here
      · exact before other earlier
  exact sorted [] List.Pairwise.nil (by simp)

/-- A list of texts can be read back. -/
theorem readable_strs (levels : Nat) (values : List String) :
    Readable (levels + 1) (strs values) := by
  refine Readable.arr fun item listed => ?_
  obtain ⟨value, -, rfl⟩ := List.mem_map.mp listed
  exact Readable.str value

end Json

namespace Settings

open Json (Readable Ordered)

/-- A document laid over another nests no deeper than both and has no other parts. -/
theorem readable_merge {levels : Nat} {base overlay : Json} (below : Readable levels base)
    (above : Readable levels overlay) : Readable levels (merge base overlay) := by
  induction above generalizing base with
  | @obj levels upper ascending each ih =>
    cases below with
    | @obj _ fields lower inner =>
      rw [merge_objects]
      refine Readable.obj (ascending_mergeFields lower upper) fun field listed => ?_
      rcases of_mem_mergeFields lower ascending listed with
        there | beneath | ⟨value, _, beneath, there, laid⟩
      · exact each field there
      · exact inner field beneath
      · rw [laid]
        exact ih _ there (inner _ beneath)
    | null | bool | int | real | str | arr =>
      rw [merge_onto rfl]
      exact Readable.obj ascending each
  | arr each =>
    rw [merge_of base rfl]
    exact Readable.arr each
  | int least greatest =>
    rw [merge_of base rfl]
    exact Readable.int least greatest
  | real back =>
    rw [merge_of base rfl]
    exact Readable.real back
  | null | bool | str =>
    rw [merge_of base rfl]
    constructor

/-- The defaults can be read back. -/
theorem readable_defaultDocument (levels : Nat) : Readable (levels + 4) defaultDocument := by
  unfold defaultDocument
  repeat' first
    | exact Readable.str _
    | exact Readable.bool _
    | exact Readable.int (by decide) (by decide)
    | exact Json.readable_strs _ _
    | apply Json.readable_object
    | refine List.forall_mem_cons.mpr ⟨?_, ?_⟩
    | exact List.forall_mem_nil _
    | exact Readable.arr (List.forall_mem_nil _)
    | exact Readable.obj List.Pairwise.nil (List.forall_mem_nil _)

/-- Two settings that answer alike, whatever path is asked for and whatever stands in. -/
structure AnswerAlike (first second : Settings) : Prop where
  /-- The values at paths. -/
  value : ∀ path, first.get? path = second.get? path
  /-- Texts. -/
  str : ∀ path missing, first.getStr path missing = second.getStr path missing
  /-- Integers of 64 bits. -/
  long : ∀ path missing, first.getLong path missing = second.getLong path missing
  /-- Integers of 32 bits. -/
  int : ∀ path missing, first.getInt path missing = second.getInt path missing
  /-- Truth values. -/
  bool : ∀ path missing, first.getBool path missing = second.getBool path missing
  /-- Lists of texts. -/
  list : ∀ path missing, first.getList path missing = second.getList path missing

/-- Settings answer from their document alone. -/
theorem answerAlike_of_document {first second : Settings}
    (same : first.document = second.document) : AnswerAlike first second := by
  have value (path : String) : first.get? path = second.get? path := by rw [get?, get?, same]
  have long (path : String) (missing : Int) :
      first.getLong path missing = second.getLong path missing := by rw [getLong, getLong, value]
  refine ⟨value, ?_, long, ?_, ?_, ?_⟩
  · intro path missing
    rw [getStr, getStr, value]
  · intro path missing
    rw [getInt, getInt, long]
  · intro path missing
    rw [getBool, getBool, value]
  · intro path missing
    rw [getList, getList, value]

/-- A document that is an object stays one over the defaults. -/
theorem isObject_layered {document : Json} (object : document.isObject = true) (baseDir : String) :
    (layered document baseDir).document.isObject = true := by
  cases document with
  | obj fields =>
    change (merge (Json.obj _) (.obj fields)).isObject = true
    rw [merge_objects]
    rfl
  | null | bool | int | real | str | arr => contradiction

/-- Exported settings reload to themselves: where the text of their document is read back as that
document, it is accepted as a document, and laid over the defaults once more it gives the same
settings. The text is read back whenever the document that was laid over the defaults can be. Any
layer that is applied a second time, from below or from above, changes nothing. -/
theorem exported_reloads {document : Json} (object : document.isObject = true)
    (ordered : document.Ordered) {path : String} (json : isTomlPath path = false)
    (baseDir elsewhere : String) :
    (Json.parse? (layered document baseDir).exported = some (layered document baseDir).document →
      ∃ reloaded, parseDocument path (layered document baseDir).exported = .ok reloaded ∧
        (layered reloaded elsewhere).document = (layered document baseDir).document ∧
        AnswerAlike (layered reloaded elsewhere) (layered document baseDir)) ∧
    (document.Readable Json.maxDepth →
      Json.parse? (layered document baseDir).exported =
        some (layered document baseDir).document) ∧
    ∀ base overlay : Json, base.Ordered → overlay.Ordered →
      merge base (merge base overlay) = merge base overlay ∧
        merge (merge base overlay) overlay = merge base overlay := by
  refine ⟨fun back => ?_, fun readable => ?_, fun base overlay below above => ?_⟩
  · have defaults : Json.Ordered defaultDocument := (readable_defaultDocument 0).ordered
    have again : (layered (layered document baseDir).document elsewhere).document =
        (layered document baseDir).document := merge_base_again defaults ordered
    refine ⟨_, ?_, again, answerAlike_of_document again⟩
    simp only [parseDocument, json, Bool.false_eq_true, if_false, back, isObject_layered object,
      if_true]
  · exact Json.parse?_pretty (readable_merge (readable_defaultDocument 123) readable)
  · exact ⟨merge_base_again below above, merge_overlay_again below above⟩

/-- A document that puts a number in place of an object and an object in place of a number. -/
def unusual : Json :=
  .obj [("parser", .real 0x3FE0000000000000),
    ("performance", .obj [("maxThreads", .obj [("most", .int 18446744073709551615)])])]

/-- The unusual document can be read back. -/
theorem readable_unusual : unusual.Readable Json.maxDepth := by
  have most : Readable 125 (.obj [("most", .int 18446744073709551615)]) :=
    Readable.obj (List.pairwise_singleton _ _)
      (List.forall_mem_singleton.mpr (Readable.int (by decide) (by decide)))
  have threads : Readable 126
      (.obj [("maxThreads", .obj [("most", .int 18446744073709551615)])]) :=
    Readable.obj (List.pairwise_singleton _ _) (List.forall_mem_singleton.mpr most)
  refine Readable.obj (List.pairwise_pair.mpr (by decide)) (List.forall_mem_cons.mpr ⟨?_, ?_⟩)
  · exact Readable.real rfl
  · exact List.forall_mem_singleton.mpr threads

/-- The unusual document comes out of export and loading with the same answers. -/
theorem exported_reloads_unusual :
    isTomlPath "cfml-lint.json" = false ∧ unusual.Ordered ∧
      ∃ reloaded, parseDocument "cfml-lint.json" (layered unusual "/work").exported = .ok reloaded ∧
        (layered reloaded "/home").document = (layered unusual "/work").document ∧
        AnswerAlike (layered reloaded "/home") (layered unusual "/work") := by
  have json : isTomlPath "cfml-lint.json" = false := by decide
  obtain ⟨reloads, back, -⟩ :=
    exported_reloads rfl readable_unusual.ordered json "/work" "/home"
  exact ⟨json, readable_unusual.ordered, reloads (back readable_unusual)⟩

end Settings

end CfmlTidy
