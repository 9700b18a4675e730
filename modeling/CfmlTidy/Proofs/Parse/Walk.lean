import Mathlib
import CfmlTidy.Parse.Structural
import CfmlTidy.Proofs.Text.Lowered
import CfmlTidy.Proofs.Text.Place

/-!
# Walking over a content by byte offsets

Structural reading can go by byte offsets alone: it looks up bytes, cuts the content and a copy of
it in lower case at offsets, and says at which offset to go on. Such a walk can break down, at a
byte behind the end, at a cut that does not lie between characters, or in a turn that does not go
on. This module defines the walk with its breakdowns and shows what every turn gains: one that does
not break down goes on at a later offset, wherever it stands.
-/

namespace CfmlTidy.Script

open CfmlTidy.Encoding.Utf8 (byteOf encode)
open CfmlTidy.Text

/-- What a walk breaks down at. -/
inductive Breakdown where
  /-- A cut between offsets that are out of order, behind the end or inside a character. -/
  | cut (start stop : Nat)
  /-- A byte, or an entry of a list, behind the end. -/
  | index (offset : Nat)
  /-- A turn of a loop that does not go on. -/
  | stalled (offset : Nat)
deriving Repr, DecidableEq

/-- What is met on a stretch of a content, and the offset at which the walk goes on. -/
structure Stretch where
  /-- What is met. -/
  met : List Event
  /-- The offset behind the stretch. -/
  next : Nat
deriving Repr, DecidableEq

namespace Walk

/-- The byte at an offset. -/
def byteAt (content : List Char) (offset : Nat) : Except Breakdown UInt8 :=
  match (encode content)[offset]? with
  | some byte => .ok byte
  | none => .error (.index offset)

/-- The content from an offset on. -/
def cutFrom (content : List Char) (start : Nat) : Except Breakdown (List Char) :=
  match dropBytes start content with
  | some rest => .ok rest
  | none => .error (.cut start (byteLength content))

/-- The content between two offsets. -/
def cutOut (content : List Char) (start stop : Nat) : Except Breakdown (List Char) :=
  match sliceBytes start stop content with
  | some inside => .ok inside
  | none => .error (.cut start stop)

/-- The number of bytes of a text before a word. -/
def find? (word text : List Char) : Option Nat := (cutAt? word text).map fun cut => byteLength cut.1

/-- The place of an offset, looked up among the starts of lines. -/
def placeAt (content : List Char) (offset : Nat) : Except Breakdown Position :=
  let stop := min offset (byteLength content)
  let line := ((lineStarts content).takeWhile (· ≤ stop)).length
  match (lineStarts content)[line - 1]? with
  | some start => .ok ⟨line, (sliceBytes start stop content).elim (stop - start) List.length + 1⟩
  | none => .error (.index (line - 1))

/-- A comment with delimiters that opens at an offset. -/
def comment (content : List Char) (kind : CommentKind) (start : Nat) :
    Except Breakdown Stretch := do
  let inner := start + byteLength kind.opening
  let rest ← cutFrom content inner
  match find? kind.closing rest with
  | none => return ⟨[.fault start (.openComment kind)], byteLength content⟩
  | some length =>
    let body ← cutOut content inner (inner + length)
    let stop := inner + length + byteLength kind.closing
    return ⟨[.comment kind body start stop], stop⟩

/-- A line comment that opens at an offset of a block up to `stop`. -/
def lineComment (content : List Char) (stop start : Nat) : Except Breakdown Stretch := do
  let line ← cutOut content start stop
  let behind := (find? ['\n'] line).elim stop (start + ·)
  let body ← cutOut content (start + 2) behind
  return ⟨[.comment .line body start behind], behind⟩

/-- A comment that opens with a slash and a star. -/
def starComment (content : List Char) (start : Nat) : Except Breakdown Stretch := do
  let rest ← cutFrom content start
  if CommentKind.doc.opening.isPrefixOf rest ∧ ¬ ['/', '*', '*', '/'].isPrefixOf rest then
    comment content .doc start
  else comment content .block start

/-- The end of a literal that opens at an offset of a block up to `stop`, from a later offset on. -/
def literal (content : List Char) (quote : UInt8) (stop start pos : Nat) :
    Except Breakdown Stretch :=
  if pos < stop then do
    let byte ← byteAt content pos
    if byte = quote then
      if (encode content)[pos + 1]? = some quote ∧ pos + 1 < stop then
        literal content quote stop start (pos + 2)
      else return ⟨[], pos + 1⟩
    else literal content quote stop start (pos + 1)
  else return ⟨[.fault start .openLiteral], stop⟩
termination_by stop - pos

/-- What a bracket is met as, and the brackets that are open behind it, innermost first. -/
def bracket (opened : List (Char × Nat)) (c : Char) (offset : Nat) :
    List Event × List (Char × Nat) :=
  match Source.closerOf? c, opened with
  | some _, _ => ([], (c, offset) :: opened)
  | none, [] => ([.fault offset (.unexpected c)], [])
  | none, (opening, openedAt) :: outer =>
    if Source.closerOf? opening = some c then ([], outer)
    else ([.fault offset (.mismatched c opening openedAt)], outer)

/-- One turn over a block up to `stop`: the stretch, and the brackets that are open behind it. -/
def turn (content : List Char) (stop : Nat) (opened : List (Char × Nat)) (pos : Nat) :
    Except Breakdown (Stretch × List (Char × Nat)) := do
  let byte ← byteAt content pos
  let next := (encode content)[pos + 1]?
  let c := Char.ofNat byte.toNat
  if c = '/' ∧ next = some (byteOf '/') then
    return (← lineComment content stop pos, opened)
  else if c = '/' ∧ next = some (byteOf '*') then
    return (← starComment content pos, opened)
  else if c = '<' then
    let rest ← cutFrom content pos
    if CommentKind.tag.opening.isPrefixOf rest then return (← comment content .tag pos, opened)
    else return (⟨[], pos + 1⟩, opened)
  else if Source.isQuote c then
    return (← literal content byte stop pos (pos + 1), opened)
  else if isBracket c then
    let (met, left) := bracket opened c pos
    return (⟨met, pos + 1⟩, left)
  else return (⟨[], pos + 1⟩, opened)

/-- Go over a block up to `stop`, turn by turn. Brackets left open are reported at the end. -/
def block (content : List Char) (stop : Nat) (opened : List (Char × Nat)) (pos : Nat) :
    Except Breakdown (List Event) :=
  if pos < stop then
    match turn content stop opened pos with
    | .error breakdown => .error breakdown
    | .ok (stretch, left) =>
      if pos < stretch.next then (block content stop left stretch.next).map (stretch.met ++ ·)
      else .error (.stalled pos)
  else .ok (opened.reverse.map fun left => .fault left.2 (.unclosed left.1))
termination_by stop - pos

/-- A comment of markup. -/
def markupComment (content : List Char) (start : Nat) : Except Breakdown Stretch := do
  let rest ← cutFrom content start
  if CommentKind.tag.opening.isPrefixOf rest then comment content .tag start
  else comment content .html start

/-- A script block with its tags. The closing tag is looked for in lower case. -/
def scriptBlock (content : List Char) (start : Nat) : Except Breakdown Stretch := do
  let rest ← cutFrom content start
  match find? ['>'] rest with
  | none => return ⟨[.fault start .openTag], byteLength content⟩
  | some length =>
    let inner := start + length + 1
    let body ← cutFrom (content.map lower) inner
    match find? blockClosing body with
    | none =>
      let met ← block content (byteLength content) [] inner
      return ⟨.fault start .openBlock :: met, byteLength content⟩
    | some length =>
      let close := inner + length
      let met ← block content close [] inner
      let tag ← cutFrom content close
      return ⟨met, (find? ['>'] tag).elim (byteLength content) (close + · + 1)⟩

/-- One turn over markup: the next comment or script block, if there is one. Both are looked for in
lower case. -/
def markupTurn (content : List Char) (pos : Nat) : Except Breakdown (Option Stretch) := do
  let rest ← cutFrom (content.map lower) pos
  match find? CommentKind.html.opening rest, find? blockOpening rest with
  | some comment, some script =>
    if pos + comment < pos + script then return some (← markupComment content (pos + comment))
    else return some (← scriptBlock content (pos + script))
  | some comment, none => return some (← markupComment content (pos + comment))
  | none, some script => return some (← scriptBlock content (pos + script))
  | none, none => return none

/-- Go over markup, turn by turn. -/
def markup (content : List Char) (pos : Nat) : Except Breakdown (List Event) :=
  if pos < byteLength content then
    match markupTurn content pos with
    | .error breakdown => .error breakdown
    | .ok none => .ok []
    | .ok (some stretch) =>
      if pos < stretch.next then (markup content stretch.next).map (stretch.met ++ ·)
      else .error (.stalled pos)
  else .ok []
termination_by byteLength content - pos

/-- Go over a file. -/
def file (path : String) (content : List Char) : Except Breakdown (List Event) :=
  if isScriptSource path content then block content (byteLength content) [] 0
  else markup content 0

section Cuts

variable {content inside rest : List Char} {offset start stop : Nat}

/-- Two steps in a row succeed when the first does and the second does on its value. -/
theorem bind_eq_ok {α β : Type} {first : Except Breakdown α} {more : α → Except Breakdown β}
    {result : β} :
    first >>= more = .ok result ↔ ∃ value, first = .ok value ∧ more value = .ok result := by
  cases first <;> simp [bind, Except.bind]

/-- A walk cuts exactly where something is read. -/
theorem cutFrom_eq_ok_iff : cutFrom content start = .ok rest ↔ ReadsAt content start rest := by
  rw [cutFrom, ← dropBytes_eq_some_iff]
  cases dropBytes start content <;> simp

/-- A walk cuts out exactly what is read from one offset up to the other. -/
theorem cutOut_eq_ok_iff :
    cutOut content start stop = .ok inside ↔
      (∃ rest, ReadsAt content start (inside ++ rest)) ∧ stop = start + byteLength inside := by
  rw [cutOut, ← sliceBytes_eq_some_iff]
  cases sliceBytes start stop content <;> simp

/-- The place of an offset is looked up where it is. The first line starts at zero, so at least one
line starts at or before the offset. -/
theorem placeAt_eq (content : List Char) (offset : Nat) :
    placeAt content offset = .ok (positionAt content offset) := by
  have first : (lineStarts content).takeWhile (· ≤ min offset (byteLength content)) =
      0 :: (startsFrom 0 content).takeWhile (· ≤ min offset (byteLength content)) := by
    rw [lineStarts, List.takeWhile_cons_of_pos (by simp)]
  have bound := (List.takeWhile_sublist (· ≤ min offset (byteLength content))
    (l := lineStarts content)).length_le
  have inside : ((lineStarts content).takeWhile (· ≤ min offset (byteLength content))).length - 1 <
      (lineStarts content).length := by
    rw [first, List.length_cons] at bound ⊢
    omega
  rw [positionAt_eq_lookUpPlace, lookUpPlace, placeAt]
  simp only [List.getElem?_eq_getElem inside, Option.getD_some]

end Cuts

section Progress

variable {content : List Char} {kind : CommentKind} {opened left : List (Char × Nat)}
  {start stop pos : Nat} {stretch : Stretch}

/-- The opening of a comment has bytes. -/
theorem byteLength_opening_pos (kind : CommentKind) : 0 < byteLength kind.opening := by
  cases kind <;> decide

/-- A comment ends behind its start. -/
theorem lt_next_of_comment (done : comment content kind start = .ok stretch) :
    start < stretch.next := by
  have positive := byteLength_opening_pos kind
  rw [comment] at done
  obtain ⟨rest, cut, done⟩ := bind_eq_ok.mp done
  have within := (cutFrom_eq_ok_iff.mp cut).add_byteLength
  split at done
  · obtain rfl := Except.ok.inj done
    simp only
    omega
  · obtain ⟨body, -, done⟩ := bind_eq_ok.mp done
    obtain rfl := Except.ok.inj done
    simp only
    omega

/-- A line comment goes on behind its start. -/
theorem lt_next_of_lineComment (done : lineComment content stop start = .ok stretch) :
    start < stretch.next := by
  rw [lineComment] at done
  obtain ⟨line, -, done⟩ := bind_eq_ok.mp done
  obtain ⟨body, cut, done⟩ := bind_eq_ok.mp done
  obtain rfl := Except.ok.inj done
  have size := (cutOut_eq_ok_iff.mp cut).2
  simp only
  omega

/-- A comment between slashes and stars goes on behind its start. -/
theorem lt_next_of_starComment (done : starComment content start = .ok stretch) :
    start < stretch.next := by
  rw [starComment] at done
  obtain ⟨rest, -, done⟩ := bind_eq_ok.mp done
  split_ifs at done <;> exact lt_next_of_comment done

/-- A literal does not end before the offset that is reached. -/
theorem le_next_of_literal {quote : UInt8}
    (done : literal content quote stop start pos = .ok stretch) (within : pos ≤ stop) :
    pos ≤ stretch.next := by
  fun_induction literal content quote stop start pos with
  | case1 pos inside ih ih' =>
    obtain ⟨byte, -, done⟩ := bind_eq_ok.mp done
    split_ifs at done with closes doubled
    · have later := ih doubled done (by omega)
      omega
    · obtain rfl := Except.ok.inj done
      simp
    · have later := ih' done (by omega)
      omega
  | case2 pos outside =>
    obtain rfl := Except.ok.inj done
    exact within

/-- Every turn over a block goes on at a later offset. -/
theorem lt_next_of_turn (inside : pos < stop)
    (done : turn content stop opened pos = .ok (stretch, left)) : pos < stretch.next := by
  rw [turn] at done
  obtain ⟨byte, -, done⟩ := bind_eq_ok.mp done
  simp only at done
  split_ifs at done
  · obtain ⟨found, cut, done⟩ := bind_eq_ok.mp done
    obtain ⟨rfl, -⟩ := Prod.mk.inj (Except.ok.inj done)
    exact lt_next_of_lineComment cut
  · obtain ⟨found, cut, done⟩ := bind_eq_ok.mp done
    obtain ⟨rfl, -⟩ := Prod.mk.inj (Except.ok.inj done)
    exact lt_next_of_starComment cut
  · obtain ⟨rest, -, done⟩ := bind_eq_ok.mp done
    split_ifs at done
    · obtain ⟨found, cut, done⟩ := bind_eq_ok.mp done
      obtain ⟨rfl, -⟩ := Prod.mk.inj (Except.ok.inj done)
      exact lt_next_of_comment cut
    · obtain ⟨rfl, -⟩ := Prod.mk.inj (Except.ok.inj done)
      exact Nat.lt_succ_self pos
  · obtain ⟨found, cut, done⟩ := bind_eq_ok.mp done
    obtain ⟨rfl, -⟩ := Prod.mk.inj (Except.ok.inj done)
    exact le_next_of_literal cut inside
  · obtain ⟨rfl, -⟩ := Prod.mk.inj (Except.ok.inj done)
    exact Nat.lt_succ_self pos
  · obtain ⟨rfl, -⟩ := Prod.mk.inj (Except.ok.inj done)
    exact Nat.lt_succ_self pos

/-- A comment of markup goes on behind its start. -/
theorem lt_next_of_markupComment (done : markupComment content start = .ok stretch) :
    start < stretch.next := by
  rw [markupComment] at done
  obtain ⟨rest, -, done⟩ := bind_eq_ok.mp done
  split_ifs at done <;> exact lt_next_of_comment done

/-- A script block that starts before the end of the content ends behind its start. -/
theorem lt_next_of_scriptBlock (inside : start < byteLength content)
    (done : scriptBlock content start = .ok stretch) : start < stretch.next := by
  rw [scriptBlock] at done
  obtain ⟨rest, -, done⟩ := bind_eq_ok.mp done
  split at done
  · obtain rfl := Except.ok.inj done
    exact inside
  · obtain ⟨body, -, done⟩ := bind_eq_ok.mp done
    split at done
    · obtain ⟨met, -, done⟩ := bind_eq_ok.mp done
      obtain rfl := Except.ok.inj done
      exact inside
    · obtain ⟨met, -, done⟩ := bind_eq_ok.mp done
      obtain ⟨tag, -, done⟩ := bind_eq_ok.mp done
      obtain rfl := Except.ok.inj done
      simp only
      cases find? ['>'] tag with
      | none => exact inside
      | some length =>
        simp only [Option.elim_some]
        omega

/-- A word that is found in what is read from an offset on starts before the end. -/
theorem lt_of_find? {word text rest : List Char} {before : Nat} (filled : 0 < byteLength word)
    (reads : ReadsAt text pos rest) (found : find? word rest = some before) :
    pos + before < byteLength text := by
  obtain ⟨⟨front, after⟩, cut, rfl⟩ := Option.map_eq_some_iff.mp found
  have total := reads.add_byteLength
  rw [cutAt?_eq_some cut, byteLength_append, byteLength_append] at total
  simp only
  omega

/-- Every turn over markup goes on at a later offset. -/
theorem lt_next_of_markupTurn (done : markupTurn content pos = .ok (some stretch)) :
    pos < stretch.next := by
  rw [markupTurn] at done
  obtain ⟨rest, cut, done⟩ := bind_eq_ok.mp done
  have reads := cutFrom_eq_ok_iff.mp cut
  have inside {before : Nat} (found : find? blockOpening rest = some before) :
      pos + before < byteLength content := by
    rw [← byteLength_lowered content]
    exact lt_of_find? (by decide) reads found
  split at done
  · next before script _ found =>
    split_ifs at done
    · obtain ⟨stretch, read, done⟩ := bind_eq_ok.mp done
      obtain rfl := Option.some.inj (Except.ok.inj done)
      exact Nat.lt_of_le_of_lt (Nat.le_add_right _ _) (lt_next_of_markupComment read)
    · obtain ⟨stretch, read, done⟩ := bind_eq_ok.mp done
      obtain rfl := Option.some.inj (Except.ok.inj done)
      exact Nat.lt_of_le_of_lt (Nat.le_add_right _ _) (lt_next_of_scriptBlock (inside found) read)
  · obtain ⟨stretch, read, done⟩ := bind_eq_ok.mp done
    obtain rfl := Option.some.inj (Except.ok.inj done)
    exact Nat.lt_of_le_of_lt (Nat.le_add_right _ _) (lt_next_of_markupComment read)
  · next script _ found =>
    obtain ⟨stretch, read, done⟩ := bind_eq_ok.mp done
    obtain rfl := Option.some.inj (Except.ok.inj done)
    exact Nat.lt_of_le_of_lt (Nat.le_add_right _ _) (lt_next_of_scriptBlock (inside found) read)
  · cases Except.ok.inj done

end Progress

end Walk

end CfmlTidy.Script
