import Mathlib
import CfmlTidy.Proofs.Parse.Fault

/-!
# Where comments stand

A comment that is met in a script block is spelled in the source with its delimiters, and the next
one starts behind its end. It also starts in the block, but need not end there: a comment with
delimiters is closed wherever its closing delimiter comes, also behind the block. What that takes
is that the block reads otherwise than it would at the end of the source, so the comments of a block
end in it exactly when the block reads the same whatever follows.
-/

namespace CfmlTidy.Script

open CfmlTidy.Text

/-- A comment of a source with the offset at which it starts. -/
structure Extent where
  /-- The form of the comment. -/
  kind : CommentKind
  /-- The text between its delimiters. -/
  body : List Char
  /-- Byte offset of the first character. -/
  start : Nat
deriving Repr, DecidableEq

namespace Extent

/-- The comment with its delimiters. -/
def source (extent : Extent) : List Char :=
  extent.kind.opening ++ extent.body ++ extent.kind.closing

/-- The offset behind the comment. -/
def stop (extent : Extent) : Nat := extent.start + byteLength extent.source

/-- The comment as it is told of, with its places; a line comment loses the carriage returns at its
end. -/
def comment (content : List Char) (extent : Extent) : Comment :=
  ⟨extent.kind, if extent.kind = .line then dropEndWhile (· == '\r') extent.body else extent.body,
    positionAt content extent.start, positionAt content extent.stop⟩

/-- The comment stands in a content with its delimiters and ends where it first can. -/
structure Spelled (content : List Char) (extent : Extent) : Prop where
  /-- The content reads the comment where it starts. -/
  reads : ∃ rest, ReadsAt content extent.start (extent.source ++ rest)
  /-- A line comment does not go beyond its line. -/
  sameLine : extent.kind = .line → '\n' ∉ extent.body
  /-- The closing delimiter of any other comment occurs nowhere before. -/
  closes : extent.kind ≠ .line → ClosesFirst extent.kind.closing extent.body

/-- A comment that is spelled in a content ends in it. -/
theorem Spelled.stop_le {content : List Char} {extent : Extent} (spelled : extent.Spelled content) :
    extent.stop ≤ byteLength content := by
  obtain ⟨rest, front, rfl, starts⟩ := spelled.reads
  rw [stop, ← starts, byteLength_append, byteLength_append]
  omega

/-- A comment is not empty. -/
theorem start_lt_stop (extent : Extent) : extent.start < extent.stop := by
  obtain ⟨c, rest, opening⟩ := List.exists_cons_of_length_pos (opening_length_pos extent.kind)
  have filled := byteLength_cons_pos c (rest ++ extent.body ++ extent.kind.closing)
  rw [stop, source, opening]
  exact Nat.lt_add_of_pos_right filled

end Extent

/-- The comment that a lexeme is. -/
def Placed.extent? : Placed → Option Extent
  | ⟨offset, .comment kind body⟩ => some ⟨kind, body, offset⟩
  | _ => none

/-- The comments among lexemes. -/
def extentsOf (lexemes : List Placed) : List Extent := lexemes.filterMap Placed.extent?

/-- Stretches of a source that follow one another from an offset on. -/
structure Follow {α : Type} (start stop : α → Nat) (offset : Nat) (stretches : List α) : Prop where
  /-- No stretch starts before the offset. -/
  lower : ∀ stretch ∈ stretches, offset ≤ start stretch
  /-- Every stretch starts behind the end of those before it. -/
  apart : stretches.Pairwise fun first second => stop first ≤ start second

namespace Follow

variable {α : Type} {start stop : α → Nat} {offset : Nat} {stretch : α} {stretches : List α}

/-- No stretches follow one another. -/
theorem nil : Follow start stop offset [] := ⟨by simp, List.Pairwise.nil⟩

/-- A stretch in front of stretches that follow it is followed by them. -/
theorem cons (earlier : offset ≤ start stretch) (grows : start stretch ≤ stop stretch)
    (later : Follow start stop (stop stretch) stretches) :
    Follow start stop offset (stretch :: stretches) where
  lower := by
    refine List.forall_mem_cons.mpr ⟨earlier, fun other listed => ?_⟩
    exact earlier.trans (grows.trans (later.lower other listed))
  apart := List.pairwise_cons.mpr ⟨later.lower, later.apart⟩

/-- Stretches that follow an offset follow any earlier one. -/
theorem weaken {earlier : Nat} (le : earlier ≤ offset)
    (follow : Follow start stop offset stretches) : Follow start stop earlier stretches :=
  ⟨fun stretch listed => le.trans (follow.lower stretch listed), follow.apart⟩

end Follow

/-- Comments of a content that start between two offsets, each behind the end of the one before. -/
structure Laid (content : List Char) (start stop : Nat) (extents : List Extent) : Prop where
  /-- The content spells the comments. -/
  spelled : ∀ extent ∈ extents, extent.Spelled content
  /-- The comments follow one another. -/
  follow : Follow Extent.start Extent.stop start extents
  /-- The last comment may end behind the stretch, but starts in it. -/
  upper : ∀ extent ∈ extents, extent.start < stop

namespace Laid

variable {content : List Char} {start stop : Nat} {extent : Extent} {extents : List Extent}

/-- No comments lie between any two offsets. -/
theorem nil : Laid content start stop [] := ⟨by simp, Follow.nil, by simp⟩

/-- A comment stands before comments that start behind its end. -/
theorem cons (spelled : extent.Spelled content) (upper : extent.start < stop)
    (later : Laid content extent.stop stop extents) :
    Laid content extent.start stop (extent :: extents) where
  spelled := List.forall_mem_cons.mpr ⟨spelled, later.spelled⟩
  follow := later.follow.cons le_rfl extent.start_lt_stop.le
  upper := List.forall_mem_cons.mpr ⟨upper, later.upper⟩

/-- Comments that start behind an offset start behind any earlier one. -/
theorem weaken {earlier : Nat} (le : earlier ≤ start) (later : Laid content start stop extents) :
    Laid content earlier stop extents :=
  { later with follow := later.follow.weaken le }

end Laid

section Blocks

variable {content inside beyond body after : List Char} {offset stop : Nat} {kind : CommentKind}

/-- A line comment is spelled up to the newline. -/
theorem line_append_eq {c : Char} {rest : List Char}
    (found : commentKind? (c :: rest) = some .line) :
    c :: rest = CommentKind.line.opening ++ (rest.drop 1).takeWhile (· != '\n') ++
      CommentKind.line.closing ++ (rest.drop 1).dropWhile (· != '\n') := by
  obtain ⟨tail, split⟩ := opening_prefix_of_commentKind? found
  obtain ⟨rfl, rfl⟩ := List.cons.inj split
  rw [CommentKind.closing, List.append_nil, List.append_assoc, List.takeWhile_append_dropWhile]
  rfl

/-- A line comment ends behind its two slashes and its text. -/
theorem stop_line (body : List Char) (offset : Nat) :
    (Extent.mk .line body offset).stop = offset + 2 + byteLength body := by
  have slashes : byteLength ['/', '/'] = 2 := rfl
  rw [Extent.stop, Extent.source, CommentKind.opening, CommentKind.closing, List.append_nil,
    byteLength_append, slashes, Nat.add_assoc]

/-- Comments that are no line comments are closed by something. -/
theorem closing_filled (delimited : kind ≠ .line) : kind.closing ≠ [] := by
  cases kind <;> first | contradiction | decide

/-- What is cut off as a comment is spelled there. -/
theorem spelled_of_cutAt? (reads : ReadsAt content offset (inside ++ beyond))
    (opens : kind.opening <+: inside) (delimited : kind ≠ .line)
    (cut : cutAt? kind.closing (inside.drop kind.opening.length ++ beyond) = some (body, after)) :
    (Extent.mk kind body offset).Spelled content where
  reads := ⟨after, append_eq_of_cutAt? opens cut ▸ reads⟩
  sameLine := (absurd · delimited)
  closes _ := closesFirst_of_cutAt? (closing_filled delimited) cut

/-- A literal is spelled up to its closing quote. -/
theorem literal_append_eq {quote : Char} {rest literal : List Char}
    (cut : cutLiteral? quote rest = some (literal, after)) :
    quote :: rest = quote :: literal ++ after := by
  obtain ⟨body, -, rfl, rfl, -⟩ := quoted_of_cutLiteral? cut
  simp

/-- Characters outside comments and literals are no comments. -/
theorem extentsOf_char (c : Char) (lexemes : List Placed) :
    extentsOf (⟨offset, if isBracket c then .bracket c else .plain c⟩ :: lexemes) =
      extentsOf lexemes := by
  split <;> rfl

/-- The comments of a block start in it and follow one another. -/
theorem laid_scan (reads : ReadsAt content offset (inside ++ beyond))
    (ends : offset + byteLength inside = stop) :
    Laid content offset stop (extentsOf (scan offset inside beyond)) := by
  fun_induction scan offset inside beyond with
  | case1 => exact Laid.nil
  | case2 offset c rest found body ih =>
    have whole := line_append_eq found
    have sameLine : '\n' ∉ body := by
      intro listed
      simpa using List.mem_takeWhile_imp listed
    have starts : offset < stop := lt_of_byteLength_cons ends
    rw [whole, List.append_assoc] at reads
    rw [whole, byteLength_append, ← Nat.add_assoc] at ends
    rw [← stop_line] at ih
    have spelled : (Extent.mk .line body offset).Spelled content :=
      ⟨⟨_, reads⟩, fun _ => sameLine, (absurd rfl ·)⟩
    exact Laid.cons spelled starts (stop_line body offset ▸ ih reads.skip ends)
  | case3 => exact Laid.nil
  | case4 offset c rest kind delimited found body after cut ih =>
    have opens := opening_prefix_of_commentKind? found
    have starts : offset < stop := lt_of_byteLength_cons ends
    refine Laid.cons (spelled_of_cutAt? reads opens delimited cut) starts ?_
    rcases stillInside_cases (append_eq_of_cutAt? opens cut) with
      ⟨inner, block, -, left⟩ | ⟨-, -, -, ended⟩
    · rw [block, List.append_assoc] at reads
      rw [block, byteLength_append, ← Nat.add_assoc] at ends
      rw [left] at ih ⊢
      exact ih reads.skip ends
    · rw [ended, scan]
      exact Laid.nil
  | case5 => exact Laid.nil
  | case6 offset c rest _ quotes literal after cut ih =>
    rw [literal_append_eq cut, List.append_assoc] at reads
    rw [literal_append_eq cut, byteLength_append, ← Nat.add_assoc] at ends
    exact (ih reads.skip ends).weaken (Nat.le_add_right _ _)
  | case7 offset c rest _ _ ih =>
    rw [byteLength, ← Nat.add_assoc] at ends
    rw [extentsOf_char]
    exact (ih reads.next ends).weaken (Nat.le_add_right _ _)

/-- A block whose comments end in it reads the same without what follows. A comment that runs over
the end of the block does not end in it. -/
theorem scan_eq_of_within (ends : offset + byteLength inside = stop)
    (within : ∀ extent ∈ extentsOf (scan offset inside beyond), extent.stop ≤ stop) :
    scan offset inside beyond = scan offset inside [] := by
  fun_induction scan offset inside beyond with
  | case1 => rw [scan]
  | case2 offset c rest found body ih =>
    rw [line_append_eq found, byteLength_append, ← Nat.add_assoc] at ends
    have behind := stop_line body offset
    have same := ih (behind ▸ ends) (List.forall_mem_cons.mp within).2
    rw [same, scan, found]
  | case3 offset c rest kind delimited found cut =>
    have unclosed : cutAt? kind.closing ((c :: rest).drop kind.opening.length) = none := by
      by_contra closed
      obtain ⟨⟨body, after⟩, early⟩ := Option.ne_none_iff_exists'.mp closed
      have closes := closesFirst_of_cutAt? (closing_filled delimited) early
      rw [cutAt?_eq_some early, List.append_assoc,
        cutAt?_of_closesFirst (closing_filled delimited) closes] at cut
      contradiction
    exact (scan_openComment offset found delimited unclosed).symm
  | case4 offset c rest kind delimited found body after cut ih =>
    obtain ⟨here, later⟩ := List.forall_mem_cons.mp within
    have whole := append_eq_of_cutAt? (opening_prefix_of_commentKind? found) cut
    rcases stillInside_cases whole with ⟨inner, block, rfl, left⟩ | ⟨more, filled, longer, -⟩
    · have closes := closesFirst_of_cutAt? (closing_filled delimited) cut
      have early : cutAt? kind.closing ((c :: rest).drop kind.opening.length) =
          some (body, inner) := by
        rw [block, List.append_assoc, List.append_assoc, List.drop_left, ← List.append_assoc]
        exact cutAt?_of_closesFirst (closing_filled delimited) closes
      rw [block, byteLength_append, ← Nat.add_assoc] at ends
      rw [left] at ih later ⊢
      rw [scan_comment offset found delimited early, ih ends later]
    · obtain ⟨first, others, rfl⟩ := List.exists_cons_of_ne_nil filled
      have positive := byteLength_cons_pos first others
      rw [Extent.stop, Extent.source, longer, byteLength_append, ← Nat.add_assoc, ends] at here
      omega
  | case5 offset c rest _ quotes cut => exact (scan_openLiteral offset quotes cut).symm
  | case6 offset c rest _ quotes literal after cut ih =>
    rw [literal_append_eq cut, byteLength_append, ← Nat.add_assoc] at ends
    rw [scan_literal offset quotes cut, ih ends within]
  | case7 offset c rest found quotes ih =>
    rw [byteLength, ← Nat.add_assoc] at ends
    rw [extentsOf_char] at within
    rw [scan_char offset (commentKind?_eq_none_iff.mp found) (Bool.eq_false_iff.mpr quotes),
      ih ends within]

/-- The comments of a block end in it exactly when it reads the same without what follows. The
content that is looked at for this ends with the block. -/
theorem within_iff (reads : ReadsAt content offset (inside ++ beyond)) :
    (∀ extent ∈ extentsOf (scan offset inside beyond),
        extent.stop ≤ offset + byteLength inside) ↔
      scan offset inside beyond = scan offset inside [] := by
  constructor
  · exact scan_eq_of_within rfl
  · intro same extent listed
    obtain ⟨front, rfl, rfl⟩ := reads
    have ended : ReadsAt (front ++ inside) (byteLength front) (inside ++ []) :=
      ⟨front, by rw [List.append_nil], rfl⟩
    rw [same] at listed
    have spelled := (laid_scan ended rfl).spelled extent listed
    rw [← byteLength_append]
    exact spelled.stop_le

end Blocks

end CfmlTidy.Script
