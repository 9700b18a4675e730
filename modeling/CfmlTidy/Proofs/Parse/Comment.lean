import Mathlib
import CfmlTidy.Proofs.Parse.Extent
import CfmlTidy.Proofs.Text.Place

/-!
# The comments of a file

A file is read part after part: a script source is one block, and markup is cut into comments and
script blocks. The comments of a part start in it, so the comments of a file start one behind the
other. They lie apart, and in their blocks, exactly when no block reads on behind its end.
-/

namespace CfmlTidy.Script

open CfmlTidy.Text

/-- A part of a file. -/
inductive Part where
  /-- A comment of markup. -/
  | comment (extent : Extent)
  /-- A script block that starts at an offset and is followed by `beyond`. -/
  | block (start : Nat) (inside beyond : List Char)
  /-- A fault of markup. -/
  | fault (offset : Nat) (told : Fault)
deriving Repr, DecidableEq

namespace Part

/-- The offset at which a part starts. -/
def start : Part → Nat
  | comment extent => extent.start
  | block start _ _ => start
  | fault offset _ => offset

/-- The offset behind a part. -/
def stop : Part → Nat
  | comment extent => extent.stop
  | block start inside _ => start + byteLength inside
  | fault offset _ => offset

/-- What is met in a part. -/
def events : Part → List Event
  | comment extent => [commentEvent extent.start extent.kind extent.body]
  | block start inside beyond => readBlock start inside beyond
  | fault offset told => [.fault offset told]

/-- The comments that are met in a part. -/
def extents : Part → List Extent
  | comment extent => [extent]
  | block start inside beyond => extentsOf (scan start inside beyond)
  | fault .. => []

/-- A part reads the same without what follows. -/
def SelfContained : Part → Prop
  | block start inside beyond => scan start inside beyond = scan start inside []
  | comment _ | fault .. => True

/-- Whether a part reads the same without what follows is decided by reading it both ways. -/
instance : DecidablePred SelfContained
  | block .. => inferInstanceAs (Decidable (_ = _))
  | comment _ | fault .. => .isTrue trivial

/-- A part stands in a content as it says. -/
def StandsIn (content : List Char) : Part → Prop
  | comment extent => extent.Spelled content
  | block start inside beyond => ReadsAt content start (inside ++ beyond)
  | fault .. => True

end Part

/-- The parts of markup that starts at an offset. -/
def partsFrom (offset : Nat) (text : List Char) : List Part :=
  match text with
  | [] => []
  | c :: rest =>
    match markupComment? (c :: rest) with
    | some kind =>
      match _found : cutAt? kind.closing ((c :: rest).drop kind.opening.length) with
      | none => [.fault offset (.openComment kind)]
      | some (body, after) =>
        .comment ⟨kind, body, offset⟩ ::
          partsFrom (offset + byteLength (kind.opening ++ body ++ kind.closing)) after
    | none =>
      if startsWith blockOpening (c :: rest) then
        match _found : cutAt? ['>'] (c :: rest) with
        | none => [.fault offset .openTag]
        | some (head, body) =>
          let start := offset + byteLength head + 1
          match _closed : cutBefore? blockClosing body with
          | none => [.fault offset .openBlock, .block start body []]
          | some (inside, beyond) =>
            .block start inside beyond ::
              (match _ended : cutAt? ['>'] beyond with
              | none => []
              | some (tag, after) =>
                partsFrom (start + byteLength inside + byteLength tag + 1) after)
      else partsFrom (offset + c.utf8Size) rest
termination_by text.length
decreasing_by
  · have total := congrArg List.length (cutAt?_eq_some _found)
    have first := opening_length_pos kind
    simp only [List.length_append, List.length_drop, List.length_cons] at total ⊢
    omega
  · have outer := congrArg List.length (cutAt?_eq_some _found)
    have middle := congrArg List.length (cutBefore?_eq_some _closed)
    have inner := congrArg List.length (cutAt?_eq_some _ended)
    simp only [List.length_append, List.length_cons] at outer middle inner ⊢
    omega
  · simp

/-- The parts of a file. -/
def parts (path : String) (content : List Char) : List Part :=
  if isScriptSource path content then [.block 0 content []] else partsFrom 0 content

section Reading

variable {path : String} {content : List Char}

/-- Markup is read part after part. -/
theorem readMarkup_eq (offset : Nat) (text : List Char) :
    readMarkup offset text = (partsFrom offset text).flatMap Part.events := by
  fun_induction readMarkup offset text with
  | case1 =>
    rw [partsFrom]
    rfl
  | case2 offset c rest kind found cut =>
    rw [partsFrom, found]
    simp only
    rw [cut]
    rfl
  | case3 offset c rest kind found body after cut ih =>
    rw [partsFrom, found]
    simp only
    rw [cut, ih]
    rfl
  | case4 offset c rest found opens cut =>
    rw [partsFrom, found]
    simp only [opens, if_true]
    rw [cut]
    rfl
  | case5 offset c rest found opens head body cut start closed =>
    rw [partsFrom, found]
    simp only [opens, if_true]
    rw [cut]
    simp only
    rw [closed]
    simp only [List.flatMap_cons, List.flatMap_nil, List.append_nil]
    rfl
  | case6 offset c rest found opens head body cut start inside beyond closed ih =>
    rw [partsFrom, found]
    simp only [opens, if_true]
    rw [cut]
    simp only
    rw [closed, List.flatMap_cons]
    cases ended : cutAt? ['>'] beyond with
    | none => rfl
    | some cut =>
      obtain ⟨tag, after⟩ := cut
      exact congrArg (readBlock start inside beyond ++ ·) (ih tag after ended)
  | case7 offset c rest found other ih =>
    rw [partsFrom, found]
    simp only
    rw [if_neg other, ih]

/-- What is met in a file is what is met in its parts. -/
theorem events_eq (path : String) (content : List Char) :
    events path content = (parts path content).flatMap Part.events := by
  rw [events, parts]
  split_ifs
  · rw [List.flatMap_singleton]
    rfl
  · exact readMarkup_eq 0 content

/-- Balancing tells of the comments among lexemes. -/
theorem filterMap_balance (content : List Char) (stack : List (Char × Nat))
    (lexemes : List Placed) :
    (balance stack lexemes).filterMap (comment? content) =
      (extentsOf lexemes).map (Extent.comment content) := by
  fun_induction balance stack lexemes with
  | case1 stack => simp [comment?, extentsOf]
  | case2 stack offset kind body rest ih =>
    rw [List.filterMap_cons, ih]
    rfl
  | _ =>
    assumption

/-- The comments met in a part are those that it spells. -/
theorem comments_part (content : List Char) (part : Part) :
    part.events.filterMap (comment? content) = part.extents.map (Extent.comment content) := by
  cases part with
  | comment | fault => rfl
  | block start inside beyond => exact filterMap_balance content [] (scan start inside beyond)

/-- The comments of a file are those of its parts. -/
theorem comments_events (path : String) (content : List Char) :
    (events path content).filterMap (comment? content) =
      ((parts path content).flatMap Part.extents).map (Extent.comment content) := by
  rw [events_eq, List.filterMap_flatMap, List.map_flatMap]
  simp only [comments_part]

end Reading

section Order

variable {path : String} {content text : List Char} {offset : Nat}

/-- The comments of a part start in it, one behind the other. -/
theorem laid_extents {part : Part} (stands : part.StandsIn content) :
    Laid content part.start part.stop part.extents := by
  cases part with
  | comment extent => exact Laid.nil.cons stands extent.start_lt_stop
  | block start inside beyond => exact laid_scan stands rfl
  | fault => exact Laid.nil

/-- The comments of a part end in it exactly when it reads the same without what follows. -/
theorem selfContained_iff {part : Part} (stands : part.StandsIn content) :
    (∀ extent ∈ part.extents, extent.stop ≤ part.stop) ↔ part.SelfContained := by
  cases part with
  | comment extent => simp [Part.extents, Part.stop, Part.SelfContained]
  | block start inside beyond => exact within_iff stands
  | fault => simp [Part.extents, Part.SelfContained]

/-- A part starts before it stops. -/
theorem Part.start_le_stop (part : Part) : part.start ≤ part.stop := by
  cases part with
  | comment extent => exact extent.start_lt_stop.le
  | block => exact Nat.le_add_right _ _
  | fault => exact le_rfl

/-- Parts that stand in a content, one behind the other from an offset on. -/
structure InOrder (content : List Char) (offset : Nat) (parts : List Part) : Prop where
  /-- The content holds the parts. -/
  stands : ∀ part ∈ parts, part.StandsIn content
  /-- The parts follow one another. -/
  follow : Follow Part.start Part.stop offset parts

namespace InOrder

variable {part : Part} {parts : List Part}

/-- No parts are in order. -/
theorem nil : InOrder content offset [] := ⟨by simp, Follow.nil⟩

/-- A part in front of parts in order, which start where it ends or later, is in order with them. -/
theorem cons (stands : part.StandsIn content) (earlier : offset ≤ part.start)
    (later : InOrder content part.stop parts) : InOrder content offset (part :: parts) where
  stands := List.forall_mem_cons.mpr ⟨stands, later.stands⟩
  follow := later.follow.cons earlier part.start_le_stop

/-- Parts in order are in order from any earlier offset. -/
theorem weaken {earlier : Nat} (le : earlier ≤ offset) (later : InOrder content offset parts) :
    InOrder content earlier parts :=
  ⟨later.stands, later.follow.weaken le⟩

end InOrder

/-- A comment of markup has a closing delimiter. -/
theorem ne_line_of_markupComment? {kind : CommentKind} (found : markupComment? text = some kind) :
    kind ≠ .line := by
  unfold markupComment? at found
  split at found <;> cases found <;> decide

/-- The parts of markup stand in it, one behind the other. -/
theorem inOrder_partsFrom (reads : ReadsAt content offset text) :
    InOrder content offset (partsFrom offset text) := by
  fun_induction partsFrom offset text with
  | case1 => exact InOrder.nil
  | case2 => exact InOrder.nil.cons trivial le_rfl
  | case3 offset c rest kind found body after cut ih =>
    have opens := opening_prefix_of_markupComment? found
    have whole : ReadsAt content offset (c :: rest ++ []) := by rwa [List.append_nil]
    have closed : cutAt? kind.closing ((c :: rest).drop kind.opening.length ++ []) =
        some (body, after) := by rwa [List.append_nil]
    have spelled := spelled_of_cutAt? whole opens (ne_line_of_markupComment? found) closed
    exact (ih (readsAt_afterComment reads opens cut)).cons spelled le_rfl
  | case4 => exact InOrder.nil.cons trivial le_rfl
  | case5 offset c rest found opens head body cut start closed =>
    have block : (Part.block start body []).StandsIn content := by
      rw [Part.StandsIn, List.append_nil]
      exact readsAt_afterTag reads cut
    have later : offset ≤ start := (Nat.le_add_right _ _).trans (Nat.le_add_right _ 1)
    exact (InOrder.nil.cons block later).cons trivial le_rfl
  | case6 offset c rest found opens head body cut start inside beyond closed ih =>
    have block : (Part.block start inside beyond).StandsIn content := by
      rw [Part.StandsIn, ← cutBefore?_eq_some closed]
      exact readsAt_afterTag reads cut
    have later : offset ≤ start := (Nat.le_add_right _ _).trans (Nat.le_add_right _ 1)
    refine InOrder.cons block later ?_
    split
    · exact InOrder.nil
    · rename_i tag after ended
      refine (ih tag after ended (readsAt_afterTag block.skip ended)).weaken ?_
      exact (Nat.le_add_right _ _).trans (Nat.le_add_right _ 1)
  | case7 offset c rest found other ih => exact (ih reads.next).weaken (Nat.le_add_right _ _)

/-- The parts of a file stand in it, one behind the other. -/
theorem inOrder_parts (path : String) (content : List Char) :
    InOrder content 0 (parts path content) := by
  have reads := ReadsAt.start content
  rw [parts]
  split_ifs
  · refine InOrder.nil.cons ?_ le_rfl
    rw [Part.StandsIn, List.append_nil]
    exact reads
  · exact inOrder_partsFrom reads

/-- The comments of a part of a file stand in the file. -/
theorem laid_of_mem {part : Part} (listed : part ∈ parts path content) :
    Laid content part.start part.stop part.extents :=
  laid_extents ((inOrder_parts path content).stands part listed)

/-- Comments lie apart as far as they reach within their parts. -/
theorem apart_of_reach (path : String) (content : List Char) (reach : Extent → Nat)
    (short : ∀ extent : Extent, reach extent ≤ extent.stop)
    (within : ∀ part ∈ parts path content, ∀ extent ∈ part.extents, reach extent ≤ part.stop) :
    ((parts path content).flatMap Part.extents).Pairwise
      fun first second => reach first ≤ second.start := by
  apply List.pairwise_flatMap.mpr
  constructor
  · intro part listed
    exact (laid_of_mem listed).follow.apart.imp fun {first _} apart => (short first).trans apart
  · refine (inOrder_parts path content).follow.apart.imp_of_mem ?_
    intro first second listed listed' apart extent inFirst other inSecond
    calc
      reach extent ≤ first.stop := within first listed extent inFirst
      _ ≤ second.start := apart
      _ ≤ other.start := (laid_of_mem listed').follow.lower other inSecond

end Order

section Places

variable {content : List Char} {extent other : Extent}

/-- The places at which two comments start are in the order of their offsets. -/
theorem precedes_start_iff (spelled : extent.Spelled content) (spelled' : other.Spelled content) :
    (extent.comment content).start.Precedes (other.comment content).start ↔
      extent.start < other.start := by
  obtain ⟨_, reads⟩ := spelled.reads
  obtain ⟨_, reads'⟩ := spelled'.reads
  exact precedes_iff reads reads'

/-- The place at which a comment starts and the place behind another are in the order of their
offsets. -/
theorem precedes_stop_iff (spelled : extent.Spelled content) (spelled' : other.Spelled content) :
    (extent.comment content).start.Precedes (other.comment content).stop ↔
      extent.start < other.stop := by
  obtain ⟨_, reads⟩ := spelled.reads
  obtain ⟨_, reads'⟩ := spelled'.reads
  exact precedes_iff reads reads'.skip

end Places

/-- Comments of which every one starts behind the end of those before it. -/
def Apart (comments : List Comment) : Prop :=
  comments.Pairwise fun first second => ¬ second.start.Precedes first.stop

/-- Whether comments lie apart can be told pair by pair. -/
instance (comments : List Comment) : Decidable (Apart comments) :=
  inferInstanceAs (Decidable (List.Pairwise _ comments))

section Comments

variable {path : String} {content : List Char}

/-- What the parts of a file have is spelled in the file. -/
theorem spelled_of_mem {extent : Extent}
    (listed : extent ∈ (parts path content).flatMap Part.extents) : extent.Spelled content := by
  obtain ⟨part, there, inside⟩ := List.mem_flatMap.mp listed
  exact (laid_of_mem there).spelled extent inside

/-- The comments of a file start one behind the other. -/
theorem pairwise_precedes (path : String) (content : List Char) :
    (((parts path content).flatMap Part.extents).map (Extent.comment content)).Pairwise
      fun first second => first.start.Precedes second.start := by
  have increasing := apart_of_reach path content (fun extent => extent.start + 1)
    (fun extent => extent.start_lt_stop) fun _ listed => (laid_of_mem listed).upper
  refine List.pairwise_map.mpr (increasing.imp_of_mem fun listed listed' less => ?_)
  exact (precedes_start_iff (spelled_of_mem listed) (spelled_of_mem listed')).mpr less

/-- Comments that end in their parts lie apart. -/
theorem apart_of_within (within : ∀ part ∈ parts path content, ∀ extent ∈ part.extents,
      extent.stop ≤ part.stop) :
    Apart (((parts path content).flatMap Part.extents).map (Extent.comment content)) := by
  have apart := apart_of_reach path content Extent.stop (fun _ => le_rfl) within
  refine List.pairwise_map.mpr (apart.imp_of_mem fun listed listed' behind => ?_)
  rw [precedes_stop_iff (spelled_of_mem listed') (spelled_of_mem listed)]
  exact Nat.not_lt.mpr behind

/-- Reading a file without null characters gives the comments of its parts. -/
theorem exists_comments (path : String) (text : '\x00' ∉ content) :
    ∃ parsed, parse path content = .ok parsed ∧
      parsed.comments =
        ((parts path content).flatMap Part.extents).map (Extent.comment content) := by
  rw [parse, nullOffset?_eq_none_iff.mpr text]
  refine ⟨_, rfl, ?_⟩
  simp only
  exact comments_events path content

/-- Reading a file without null characters gives its comments part after part. Each is spelled in
the source with its delimiters and ends behind its start, and they start one behind the other. They
lie apart, and each in its part, exactly when every part reads the same without what follows it;
script sources have one part only. -/
theorem comments_apart_iff (path : String) (text : '\x00' ∉ content) :
    ∃ parsed, parse path content = .ok parsed ∧
      events path content = (parts path content).flatMap Part.events ∧
      parsed.comments =
        ((parts path content).flatMap Part.extents).map (Extent.comment content) ∧
      (∀ extent ∈ (parts path content).flatMap Part.extents, extent.Spelled content) ∧
      (∀ comment ∈ parsed.comments, comment.start.Precedes comment.stop) ∧
      (parsed.comments.Pairwise fun first second => first.start.Precedes second.start) ∧
      (Apart parsed.comments ∧
          (∀ part ∈ parts path content, ∀ extent ∈ part.extents,
            part.start ≤ extent.start ∧ extent.stop ≤ part.stop) ↔
        ∀ part ∈ parts path content, part.SelfContained) ∧
      (isScriptSource path content = true →
        ∀ part ∈ parts path content, part.SelfContained) := by
  obtain ⟨parsed, result, comments⟩ := exists_comments path text
  obtain ⟨stands, -⟩ := inOrder_parts path content
  refine ⟨parsed, result, events_eq path content, comments, fun _ => spelled_of_mem, ?_, ?_, ?_, ?_⟩
  · intro comment listed
    rw [comments] at listed
    obtain ⟨extent, inside, rfl⟩ := List.mem_map.mp listed
    have spelled := spelled_of_mem inside
    exact (precedes_stop_iff spelled spelled).mpr extent.start_lt_stop
  · rw [comments]
    exact pairwise_precedes path content
  · rw [comments]
    constructor
    · rintro ⟨-, within⟩ part listed
      exact (selfContained_iff (stands part listed)).mp fun extent inside =>
        (within part listed extent inside).2
    · intro whole
      have within (part) (listed : part ∈ parts path content) :=
        (selfContained_iff (stands part listed)).mpr (whole part listed)
      refine ⟨apart_of_within within, fun part listed extent inside => ⟨?_, ?_⟩⟩
      · exact (laid_of_mem listed).follow.lower extent inside
      · exact within part listed extent inside
  · intro script part listed
    rw [parts, if_pos script] at listed
    rw [List.mem_singleton.mp listed]
    rfl

-- The parts of a closed text are found by unfolding.
attribute [local semireducible] partsFrom scan

/-- A page with comments of four kinds and a literal that looks like one. -/
def commentedPage : List Char :=
  "<!-- ' --><cfscript>/** ( */ x = '/*'; // </b>\r\n</CFSCRIPT><!--- \x7d --->".toList

/-- Where no comment goes on behind a block, the comments lie apart. -/
theorem comments_apart_commentedPage :
    '\x00' ∉ commentedPage ∧
      ∃ parsed, parse "page.cfm" commentedPage = .ok parsed ∧ parsed.comments.length = 4 ∧
        Apart parsed.comments := by
  have text : '\x00' ∉ commentedPage := by decide
  have whole : ∀ part ∈ parts "page.cfm" commentedPage, part.SelfContained := by decide
  have four : ((parts "page.cfm" commentedPage).flatMap Part.extents).length = 4 := by decide
  obtain ⟨parsed, result, -, comments, -, -, -, apart, -⟩ := comments_apart_iff "page.cfm" text
  refine ⟨text, parsed, result, ?_, (apart.mpr whole).1⟩
  rw [comments, List.length_map, four]

/-- A script block with a comment that is closed behind the block. -/
def openedInBlock : List Char := "<cfscript>/* </cfscript><!-- x --> */".toList

/-- A comment of a script block that goes on behind the block overlaps the comment that follows. -/
theorem comments_overlap :
    '\x00' ∉ openedInBlock ∧
      ∃ parsed, parse "page.cfm" openedInBlock = .ok parsed ∧
        parsed.comments = [⟨.block, " </cfscript><!-- x --> ".toList, ⟨1, 11⟩, ⟨1, 38⟩⟩,
          ⟨.html, " x ".toList, ⟨1, 25⟩, ⟨1, 35⟩⟩] ∧
        ¬ Apart parsed.comments ∧
        ∃ part ∈ parts "page.cfm" openedInBlock, ∃ extent ∈ part.extents,
          part.stop < extent.stop := by
  have text : '\x00' ∉ openedInBlock := by decide
  have extents : (parts "page.cfm" openedInBlock).flatMap Part.extents =
      [⟨.block, " </cfscript><!-- x --> ".toList, 10⟩, ⟨.html, " x ".toList, 24⟩] := by decide
  obtain ⟨parsed, result, comments⟩ := exists_comments "page.cfm" text
  rw [extents] at comments
  refine ⟨text, parsed, result, ?_, ?_, by decide⟩
  · rw [comments]
    decide
  · rw [comments]
    decide

end Comments

end CfmlTidy.Script
