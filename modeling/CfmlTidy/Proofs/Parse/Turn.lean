import Mathlib
import CfmlTidy.Proofs.Parse.Extent
import CfmlTidy.Proofs.Parse.Walk
import CfmlTidy.Proofs.Source.Bytes

/-!
# Walking over script blocks

A walk over a script block meets what reading the block meets, and breaks down nowhere. Each turn
takes one lexeme; only a character of several bytes takes a turn for each of them, in which nothing
is met because its bytes are no ASCII bytes.

The walk looks at the content where reading looks at the block. What follows a block is its closing
tag or nothing, and no comment opening has an angle behind its first character, so both see the same
comments open.
-/

namespace CfmlTidy.Script

open CfmlTidy.Encoding.Utf8 (byteOf encode encode_cons eq_of_mem_encodeChar
  high_of_mem_encodeChar)
open CfmlTidy.Source (isQuote)
open CfmlTidy.Text

section Openings

variable {inside beyond word : List Char}

/-- A text that is no word with a tail does not start with the word. -/
theorem not_prefix_of_ne {text : List Char} (differs : ∀ tail, text = word ++ tail → False) :
    ¬ word <+: text :=
  fun ⟨tail, whole⟩ => differs tail whole.symm

/-- The kind of a comment is told by its opening. -/
theorem commentKind?_eq (text : List Char) :
    commentKind? text =
      if ['/', '/'] <+: text then some .line
      else if ['/', '*', '*', '/'] <+: text then some .block
      else if ['/', '*', '*'] <+: text then some .doc
      else if ['/', '*'] <+: text then some .block
      else if ['<', '!', '-', '-', '-'] <+: text then some .tag
      else none := by
  unfold commentKind?
  split
  · simp
  · simp
  · next tail closed =>
    have slash : ¬ ['/'] <+: tail := not_prefix_of_ne closed
    simp [slash]
  · next tail closed single =>
    have star : ¬ ['*'] <+: tail := not_prefix_of_ne single
    have both : ¬ ['*', '/'] <+: tail := not_prefix_of_ne closed
    simp [star, both]
  · simp
  · next line closed doc block tag =>
    rw [if_neg (not_prefix_of_ne line), if_neg (not_prefix_of_ne closed),
      if_neg (not_prefix_of_ne doc), if_neg (not_prefix_of_ne block),
      if_neg (not_prefix_of_ne tag)]

/-- Before an angle, what opens with a word that has no angle behind its first character is told
without the angle. -/
theorem prefix_append_iff (plain : '<' ∉ word.tail) (filled : inside ≠ [])
    (tag : ∀ first ∈ beyond.head?, first = '<') : word <+: inside ++ beyond ↔ word <+: inside := by
  constructor
  · intro starts
    rcases prefix_append_cases starts with within | ⟨first, more, rfl, next⟩
    · exact within
    · obtain rfl : first = '<' := tag first next
      refine absurd ?_ plain
      rw [List.tail_append_of_ne_nil filled]
      exact List.mem_append_right _ List.mem_cons_self
  · exact fun starts => starts.trans (List.prefix_append inside beyond)

/-- What follows a block does not open a comment that starts in it: a closing tag or nothing. -/
theorem commentKind?_append (filled : inside ≠ []) (tag : ∀ first ∈ beyond.head?, first = '<') :
    commentKind? (inside ++ beyond) = commentKind? inside := by
  have same {word : List Char} (plain : '<' ∉ word.tail) :
      word <+: inside ++ beyond ↔ word <+: inside := prefix_append_iff plain filled tag
  simp (disch := decide) only [commentKind?_eq, same]

end Openings

namespace Walk

variable {content text rest inside beyond body after : List Char} {kind : CommentKind} {c : Char}
  {opened left : List (Char × Nat)} {offset pos start stop : Nat}

section Bytes

/-- The byte of an ASCII character is looked up where the character is read. -/
theorem byteAt_of_ascii (ascii : c.toNat < 0x80) (reads : ReadsAt content pos (c :: rest)) :
    byteAt content pos = .ok (byteOf c) := by
  rw [byteAt, (getElem?_encode_iff ascii).mpr ⟨rest, reads⟩]

/-- The byte behind an ASCII character is that of another one exactly when that one is read next. -/
theorem next_eq_iff {a : Char} (ascii : c.toNat < 0x80) (ascii' : a.toNat < 0x80)
    (reads : ReadsAt content pos (c :: rest)) :
    (encode content)[pos + 1]? = some (byteOf a) ↔ rest.head? = some a := by
  have later := reads.next
  rw [utf8Size_of_ascii ascii] at later
  rw [getElem?_encode_iff ascii', List.head?_eq_some_iff]
  constructor
  · rintro ⟨others, found⟩
    exact ⟨others, later.unique found⟩
  · rintro ⟨others, rfl⟩
    exact ⟨others, later⟩

/-- Every byte of a character is looked up from where the character is read. -/
theorem byteAt_inside (reads : ReadsAt content pos (c :: rest)) {into : Nat}
    (within : into < c.utf8Size) :
    ∃ byte ∈ String.utf8EncodeChar c, byteAt content (pos + into) = .ok byte := by
  rw [← String.length_utf8EncodeChar] at within
  have found : (encode content)[pos + into]? = some (String.utf8EncodeChar c)[into] := by
    rw [← List.getElem?_drop, reads.drop_encode, encode_cons, List.getElem?_append_left within,
      List.getElem?_eq_getElem within]
  refine ⟨_, List.getElem_mem within, ?_⟩
  rw [byteAt, found]

end Bytes

section Comments

/-- A comment that is closed is met with its delimiters. -/
theorem comment_closed (reads : ReadsAt content pos text) (opens : kind.opening <+: text)
    (cut : cutAt? kind.closing (text.drop kind.opening.length) = some (body, after)) :
    comment content kind pos = .ok
      ⟨[commentEvent pos kind body], pos + byteLength (kind.opening ++ body ++ kind.closing)⟩ := by
  obtain ⟨tail, rfl⟩ := opens
  rw [List.drop_left] at cut
  have behind := reads.skip
  have whole := cutAt?_eq_some cut
  have taken : cutOut content (pos + byteLength kind.opening)
      (pos + byteLength kind.opening + byteLength body) = .ok body := by
    refine cutOut_eq_ok_iff.mpr ⟨⟨kind.closing ++ after, ?_⟩, rfl⟩
    rwa [← List.append_assoc, ← whole]
  have size : pos + byteLength (kind.opening ++ body ++ kind.closing) =
      pos + byteLength kind.opening + byteLength body + byteLength kind.closing := by
    rw [byteLength_append, byteLength_append, Nat.add_assoc, Nat.add_assoc, Nat.add_assoc]
  simp only [comment, cutFrom_eq_ok_iff.mpr behind, find?, cut, Option.map_some, taken, bind,
    Except.bind, pure, Except.pure, commentEvent, size]

/-- A comment that is never closed goes up to the end of the content. -/
theorem comment_open (reads : ReadsAt content pos text) (opens : kind.opening <+: text)
    (cut : cutAt? kind.closing (text.drop kind.opening.length) = none) :
    comment content kind pos =
      .ok ⟨[.fault pos (.openComment kind)], byteLength content⟩ := by
  obtain ⟨tail, rfl⟩ := opens
  rw [List.drop_left] at cut
  simp only [comment, cutFrom_eq_ok_iff.mpr reads.skip, find?, cut, Option.map_none, bind,
    Except.bind, pure, Except.pure]

/-- A character is first found behind what has none of it, or nowhere. -/
theorem find?_elim (c : Char) (text : List Char) (offset : Nat) :
    (find? [c] text).elim (offset + byteLength text) (offset + ·) =
      offset + byteLength (text.takeWhile (· != c)) := by
  induction text generalizing offset with
  | nil => rfl
  | cons first others ih =>
    by_cases here : c = first
    · subst here
      simp [find?, cutAt?, byteLength]
    · have elsewhere : ¬ List.isPrefixOf [c] (first :: others) = true := by
        simpa [List.isPrefixOf] using here
      have kept : (first != c) = true := bne_iff_ne.mpr (Ne.symm here)
      have later := ih (offset + first.utf8Size)
      rw [List.takeWhile_cons, if_pos kept, byteLength, byteLength, ← Nat.add_assoc,
        ← Nat.add_assoc, ← later, find?, cutAt?, if_neg elsewhere]
      cases cut : cutAt? [c] others with
      | none => simp [find?, cut]
      | some parts => simp [find?, cut, byteLength, Nat.add_assoc]

/-- A line comment goes up to the newline or the end of the block. -/
theorem lineComment_eq {tail : List Char}
    (reads : ReadsAt content pos ('/' :: '/' :: tail ++ beyond))
    (ends : pos + byteLength ('/' :: '/' :: tail) = stop) :
    lineComment content stop pos = .ok ⟨[commentEvent pos .line (tail.takeWhile (· != '\n'))],
      pos + 2 + byteLength (tail.takeWhile (· != '\n'))⟩ := by
  have line : cutOut content pos stop = .ok ('/' :: '/' :: tail) :=
    cutOut_eq_ok_iff.mpr ⟨⟨beyond, reads⟩, ends.symm⟩
  have behind : (find? ['\n'] ('/' :: '/' :: tail)).elim stop (pos + ·) =
      pos + 2 + byteLength (tail.takeWhile (· != '\n')) := by
    have found := find?_elim '\n' ('/' :: '/' :: tail) pos
    rw [ends] at found
    have slashes : '/'.utf8Size = 1 := rfl
    rw [found, List.takeWhile_cons_of_pos (by decide), List.takeWhile_cons_of_pos (by decide),
      byteLength, byteLength, slashes]
    omega
  have taken : cutOut content (pos + 2) (pos + 2 + byteLength (tail.takeWhile (· != '\n'))) =
      .ok (tail.takeWhile (· != '\n')) := by
    refine cutOut_eq_ok_iff.mpr ⟨⟨tail.dropWhile (· != '\n') ++ beyond, ?_⟩, rfl⟩
    rw [← List.append_assoc, List.takeWhile_append_dropWhile]
    exact reads.next.next
  have event : commentEvent pos .line (tail.takeWhile (· != '\n')) =
      .comment .line (tail.takeWhile (· != '\n')) pos
        (pos + 2 + byteLength (tail.takeWhile (· != '\n'))) := by
    rw [← stop_line]
    rfl
  simp only [lineComment, line, behind, taken, event, bind, Except.bind, pure, Except.pure]

end Comments

section Literals

variable {quote : Char}

/-- A character other than the quote is passed over byte by byte. From every byte of the character
on, what is left of it is passed over. -/
theorem literal_other (quotes : isQuote quote = true) (other : c ≠ quote)
    (reads : ReadsAt content pos (c :: rest)) (within : pos + c.utf8Size ≤ stop) :
    literal content (byteOf quote) stop start pos =
      literal content (byteOf quote) stop start (pos + c.utf8Size) := by
  refine Nat.decreasingInduction
    (motive := fun into _ => literal content (byteOf quote) stop start (pos + into) =
      literal content (byteOf quote) stop start (pos + c.utf8Size)) ?_ rfl (Nat.zero_le c.utf8Size)
  intro into inside behind
  obtain ⟨byte, listed, found⟩ := byteAt_inside reads inside
  have differs : byte ≠ byteOf quote := by
    rintro rfl
    exact other (eq_of_mem_encodeChar (Source.toNat_of_isQuote quotes) listed)
  rw [literal, if_pos (by omega), found]
  simp only [bind, Except.bind, if_neg differs]
  exact behind

/-- At a quote, a literal ends or goes on behind a second quote. -/
theorem literal_quote (quotes : isQuote quote = true)
    (reads : ReadsAt content pos (quote :: (rest ++ beyond)))
    (ends : pos + byteLength (quote :: rest) = stop) :
    literal content (byteOf quote) stop start pos =
      if rest.head? = some quote then literal content (byteOf quote) stop start (pos + 2)
      else .ok ⟨[], pos + 1⟩ := by
  have ascii := Source.toNat_of_isQuote quotes
  rw [byteLength, utf8Size_of_ascii ascii] at ends
  have doubled : (encode content)[pos + 1]? = some (byteOf quote) ∧ pos + 1 < stop ↔
      rest.head? = some quote := by
    rw [next_eq_iff ascii ascii reads]
    cases rest with
    | nil => simp [← ends, byteLength]
    | cons next others =>
      have positive := byteLength_cons_pos next others
      simp only [List.cons_append, List.head?_cons, and_iff_left_iff_imp]
      omega
  rw [literal, if_pos (by omega), byteAt_of_ascii ascii reads]
  simp only [bind, Except.bind, pure, Except.pure, if_true, doubled]

/-- A literal is walked over as it is cut. -/
theorem literal_eq (quotes : isQuote quote = true) (reads : ReadsAt content pos (rest ++ beyond))
    (ends : pos + byteLength rest = stop) :
    literal content (byteOf quote) stop start pos = .ok
      ((cutLiteral? quote rest).elim ⟨[.fault start .openLiteral], stop⟩
        fun cut => ⟨[], pos + byteLength cut.1⟩) := by
  have single := utf8Size_of_ascii (Source.toNat_of_isQuote quotes)
  fun_induction cutLiteral? quote rest generalizing pos with
  | case1 =>
    rw [byteLength] at ends
    rw [literal, if_neg (by omega)]
    rfl
  | case2 =>
    rw [literal_quote quotes reads ends]
    simp [byteLength, single]
  | case3 c other =>
    have done : pos + c.utf8Size = stop := ends
    rw [literal_other quotes other reads done.le, literal, if_neg (by omega)]
    rfl
  | case4 rest ih =>
    rw [literal_quote quotes reads ends, List.head?_cons, if_pos rfl]
    have behind := reads.next.next
    rw [single] at behind
    rw [byteLength, byteLength, single] at ends
    rw [ih behind (by omega)]
    cases cutLiteral? quote rest with
    | none => rfl
    | some cut =>
      simp only [Option.elim_some, Option.map_some, byteLength, single]
      congr 2
      omega
  | case5 next rest other =>
    rw [literal_quote quotes reads ends, List.head?_cons, if_neg (by simpa using other)]
    simp [byteLength, single]
  | case6 c next rest other ih =>
    rw [byteLength, ← Nat.add_assoc] at ends
    rw [literal_other quotes other reads (by omega), ih reads.next ends]
    cases cutLiteral? quote (next :: rest) with
    | none => rfl
    | some cut => simp only [Option.elim_some, Option.map_some, byteLength, Nat.add_assoc]

end Literals

section Turns

/-- What follows a value is run on it. -/
theorem ok_bind {α β : Type} (value : α) (more : α → Except Breakdown β) :
    (Except.ok value >>= more) = more value := rfl

/-- A last step that does not fail changes the value. -/
theorem bind_ok_eq_map {α β : Type} (first : Except Breakdown α) (more : α → β) :
    (first >>= fun value => Except.ok (more value)) = first.map more := by
  cases first <;> rfl

/-- What is looked at in a turn at an ASCII character. -/
theorem turn_eq (ascii : c.toNat < 0x80) (reads : ReadsAt content pos (c :: rest)) :
    turn content stop opened pos =
      if c = '/' ∧ rest.head? = some '/' then
        (lineComment content stop pos).map (·, opened)
      else if c = '/' ∧ rest.head? = some '*' then (starComment content pos).map (·, opened)
      else if c = '<' then
        if CommentKind.tag.opening <+: c :: rest then (comment content .tag pos).map (·, opened)
        else .ok (⟨[], pos + 1⟩, opened)
      else if isQuote c then
        (literal content (byteOf c) stop pos (pos + 1)).map (·, opened)
      else if isBracket c then
        .ok (⟨(bracket opened c pos).1, pos + 1⟩, (bracket opened c pos).2)
      else .ok (⟨[], pos + 1⟩, opened) := by
  rw [turn, byteAt_of_ascii ascii reads]
  simp only [ok_bind, bind_ok_eq_map, pure, Except.pure, char_byteOf ascii,
    next_eq_iff ascii (show '/'.toNat < 0x80 by decide) reads,
    next_eq_iff ascii (show '*'.toNat < 0x80 by decide) reads,
    cutFrom_eq_ok_iff.mpr reads, List.isPrefixOf_iff_prefix]

/-- What is looked at in a turn at an ASCII character that starts no comment. -/
theorem turn_of_ne (ascii : c.toNat < 0x80) (noSlash : c ≠ '/') (noAngle : c ≠ '<')
    (reads : ReadsAt content pos (c :: rest)) :
    turn content stop opened pos =
      if isQuote c then (literal content (byteOf c) stop pos (pos + 1)).map (·, opened)
      else if isBracket c then
        .ok (⟨(bracket opened c pos).1, pos + 1⟩, (bracket opened c pos).2)
      else .ok (⟨[], pos + 1⟩, opened) := by
  rw [turn_eq ascii reads, if_neg (fun both => noSlash both.1), if_neg (fun both => noSlash both.1),
    if_neg noAngle]

/-- In the middle of a character beyond ASCII nothing is met. -/
theorem turn_high {byte : UInt8} (high : 0x80 ≤ byte.toNat)
    (found : byteAt content pos = .ok byte) :
    turn content stop opened pos = .ok (⟨[], pos + 1⟩, opened) := by
  have value : (Char.ofNat byte.toNat).toNat = byte.toNat :=
    Encoding.toNat_char (Or.inl (by have := byte.toNat_lt; omega))
  have other {a : Char} (ascii : a.toNat < 0x80) : Char.ofNat byte.toNat ≠ a := by
    rintro rfl
    omega
  have noQuote : isQuote (Char.ofNat byte.toNat) = false := by
    rw [Bool.eq_false_iff]
    intro quotes
    exact other (Source.toNat_of_isQuote quotes) rfl
  have noBracket : isBracket (Char.ofNat byte.toNat) = false := by
    rw [Bool.eq_false_iff]
    intro bracket
    exact other (Source.toNat_of_isBracket bracket) rfl
  simp [turn, found, bind, Except.bind, pure, Except.pure, noQuote, noBracket,
    other (show '/'.toNat < 0x80 by decide), other (show '<'.toNat < 0x80 by decide)]

/-- A second star opens a comment of another kind unless a slash follows it. -/
theorem commentKind?_star (tail : List Char) :
    commentKind? ('/' :: '*' :: tail) =
      some (if ['*'] <+: tail ∧ ¬ ['*', '/'] <+: tail then .doc else .block) := by
  simp only [commentKind?_eq, List.cons_prefix_cons]
  by_cases star : ['*'] <+: tail
  all_goals by_cases slash : ['*', '/'] <+: tail <;> simp [star, slash]

/-- A comment that opens with a slash and a star is read as the kind that is found. -/
theorem starComment_eq {tail : List Char} (reads : ReadsAt content pos ('/' :: '*' :: tail))
    (found : commentKind? ('/' :: '*' :: tail) = some kind) :
    starComment content pos = comment content kind pos := by
  rw [commentKind?_star, Option.some.injEq] at found
  have condition : CommentKind.doc.opening.isPrefixOf ('/' :: '*' :: tail) ∧
      ¬ ['/', '*', '*', '/'].isPrefixOf ('/' :: '*' :: tail) ↔
        ['*'] <+: tail ∧ ¬ ['*', '/'] <+: tail := by
    simp [CommentKind.opening, List.isPrefixOf_iff_prefix]
  rw [starComment, cutFrom_eq_ok_iff.mpr reads, ← found]
  simp only [bind, Except.bind, condition]
  split_ifs <;> rfl

/-- A comment with delimiters opens with a slash and a star, or it is one of markup. -/
theorem opens_of_commentKind? (found : commentKind? text = some kind) (delimited : kind ≠ .line) :
    (∃ tail, text = '/' :: '*' :: tail) ∨ kind = .tag ∧ CommentKind.tag.opening <+: text := by
  unfold commentKind? at found
  split at found <;> cases found
  · contradiction
  · exact Or.inl ⟨_, rfl⟩
  · exact Or.inl ⟨_, rfl⟩
  · exact Or.inl ⟨_, rfl⟩
  · exact Or.inr ⟨rfl, _, rfl⟩

/-- In a turn at a comment with delimiters the comment is read. -/
theorem turn_comment (reads : ReadsAt content pos (inside ++ beyond))
    (tag : ∀ first ∈ beyond.head?, first = '<') (found : commentKind? inside = some kind)
    (delimited : kind ≠ .line) :
    turn content stop opened pos = (comment content kind pos).map (·, opened) := by
  have filled : inside ≠ [] := by
    rintro rfl
    contradiction
  rw [← commentKind?_append filled tag] at found
  rcases opens_of_commentKind? found delimited with ⟨tail, whole⟩ | ⟨rfl, opens⟩
  · rw [whole] at reads found
    rw [turn_eq (by decide) reads, if_neg (by simp), if_pos (by simp), starComment_eq reads found]
  · obtain ⟨tail, whole⟩ := opens
    rw [← whole] at reads
    rw [turn_eq (c := '<') (by decide) reads, if_neg (by simp), if_neg (by simp), if_pos rfl]
    exact if_pos (List.prefix_append _ tail)

/-- In a turn at a comment that is closed the comment is met. -/
theorem turn_closed (reads : ReadsAt content pos (inside ++ beyond))
    (tag : ∀ first ∈ beyond.head?, first = '<') (found : commentKind? inside = some kind)
    (delimited : kind ≠ .line)
    (cut : cutAt? kind.closing (inside.drop kind.opening.length ++ beyond) = some (body, after)) :
    turn content stop opened pos = .ok
      (⟨[commentEvent pos kind body], pos + byteLength (kind.opening ++ body ++ kind.closing)⟩,
        opened) := by
  have opens := opening_prefix_of_commentKind? found
  rw [← List.drop_append_of_le_length opens.length_le] at cut
  rw [turn_comment reads tag found delimited,
    comment_closed reads (opens.trans (List.prefix_append _ beyond)) cut]
  rfl

/-- In a turn at a comment that is never closed this is met, and the content is over. -/
theorem turn_unclosed (reads : ReadsAt content pos (inside ++ beyond))
    (tag : ∀ first ∈ beyond.head?, first = '<') (found : commentKind? inside = some kind)
    (delimited : kind ≠ .line)
    (cut : cutAt? kind.closing (inside.drop kind.opening.length ++ beyond) = none) :
    turn content stop opened pos =
      .ok (⟨[.fault pos (.openComment kind)], byteLength content⟩, opened) := by
  have opens := opening_prefix_of_commentKind? found
  rw [← List.drop_append_of_le_length opens.length_le] at cut
  rw [turn_comment reads tag found delimited,
    comment_open reads (opens.trans (List.prefix_append _ beyond)) cut]
  rfl

/-- In a turn at a line comment the comment is met. -/
theorem turn_line {tail : List Char}
    (reads : ReadsAt content pos ('/' :: '/' :: tail ++ beyond))
    (ends : pos + byteLength ('/' :: '/' :: tail) = stop) :
    turn content stop opened pos = .ok
      (⟨[commentEvent pos .line (tail.takeWhile (· != '\n'))],
        pos + 2 + byteLength (tail.takeWhile (· != '\n'))⟩, opened) := by
  rw [turn_eq (by decide) reads, if_pos (by simp), lineComment_eq reads ends]
  rfl

/-- In a turn at a quote a literal is read. -/
theorem turn_quote (quotes : isQuote c = true) (reads : ReadsAt content pos (c :: rest ++ beyond))
    (ends : pos + byteLength (c :: rest) = stop) :
    turn content stop opened pos = .ok
      ((cutLiteral? c rest).elim ⟨[.fault pos .openLiteral], stop⟩
        fun cut => ⟨[], pos + byteLength (c :: cut.1)⟩, opened) := by
  have ascii := Source.toNat_of_isQuote quotes
  have noSlash : c ≠ '/' := by rintro rfl; contradiction
  have noAngle : c ≠ '<' := by rintro rfl; contradiction
  have behind := reads.next
  rw [utf8Size_of_ascii ascii] at behind
  rw [byteLength, utf8Size_of_ascii ascii, ← Nat.add_assoc] at ends
  rw [turn_of_ne ascii noSlash noAngle reads, if_pos quotes, literal_eq quotes behind ends]
  simp only [Except.map, byteLength, utf8Size_of_ascii ascii, Nat.add_assoc]

/-- In a turn at a bracket outside comments and literals the bracket is balanced. -/
theorem turn_bracket (bracketed : isBracket c = true) (reads : ReadsAt content pos (c :: rest)) :
    turn content stop opened pos =
      .ok (⟨(bracket opened c pos).1, pos + 1⟩, (bracket opened c pos).2) := by
  have noSlash : c ≠ '/' := by rintro rfl; contradiction
  have noAngle : c ≠ '<' := by rintro rfl; contradiction
  have noQuote : isQuote c = false := (of_isBracket bracketed rest).2
  rw [turn_of_ne (Source.toNat_of_isBracket bracketed) noSlash noAngle reads,
    if_neg (by simp [noQuote]), if_pos bracketed]

/-- In a turn at any other ASCII character nothing is met. -/
theorem turn_plain (ascii : c.toNat < 0x80) (reads : ReadsAt content pos (c :: rest))
    (noComment : ¬ StartsComment (c :: rest)) (noQuote : isQuote c = false)
    (noBracket : isBracket c = false) :
    turn content stop opened pos = .ok (⟨[], pos + 1⟩, opened) := by
  have noLine : ¬ (c = '/' ∧ rest.head? = some '/') := by
    rintro ⟨rfl, second⟩
    obtain ⟨tail, rfl⟩ := List.head?_eq_some_iff.mp second
    exact noComment ⟨.line, by simp, tail, rfl⟩
  have noStar : ¬ (c = '/' ∧ rest.head? = some '*') := by
    rintro ⟨rfl, second⟩
    obtain ⟨tail, rfl⟩ := List.head?_eq_some_iff.mp second
    exact noComment ⟨.block, by simp, tail, rfl⟩
  have noTag : ¬ CommentKind.tag.opening <+: c :: rest :=
    fun opens => noComment ⟨.tag, by simp, opens⟩
  rw [turn_eq ascii reads, if_neg noLine, if_neg noStar, if_neg noTag]
  simp [noQuote, noBracket]

end Turns

section Blocks

variable {met more : List Event} {next : Nat}

/-- A walk over a block goes on behind the stretch of its first turn. -/
theorem block_turn (inside : pos < stop)
    (turned : turn content stop opened pos = .ok (⟨met, next⟩, left))
    (later : block content stop left next = .ok more) :
    block content stop opened pos = .ok (met ++ more) := by
  have gains : pos < next := lt_next_of_turn inside turned
  rw [block, if_pos inside, turned]
  simp only [if_pos gains, later, Except.map]

/-- Behind the end of a block only the brackets that are left open are met. -/
theorem block_past (past : stop ≤ pos) :
    block content stop opened pos = .ok (balance opened []) := by
  rw [block, if_neg (Nat.not_lt.mpr past), balance]

/-- A character beyond ASCII is passed over byte by byte. From every byte of the character on,
nothing is met in what is left of it. -/
theorem block_high (wide : ¬ c.toNat < 0x80) (reads : ReadsAt content pos (c :: rest))
    (within : pos + c.utf8Size ≤ stop)
    (later : block content stop opened (pos + c.utf8Size) = .ok more) :
    block content stop opened pos = .ok more := by
  refine Nat.decreasingInduction
    (motive := fun into _ => block content stop opened (pos + into) = .ok more) ?_ later
    (Nat.zero_le c.utf8Size)
  intro into inside behind
  obtain ⟨byte, listed, found⟩ := byteAt_inside reads inside
  have high := high_of_mem_encodeChar wide byte listed
  exact block_turn (by omega) (turn_high high found) behind

/-- What balancing does with a bracket. -/
theorem balance_bracket (opened : List (Char × Nat)) (c : Char) (offset : Nat)
    (lexemes : List Placed) :
    balance opened (⟨offset, .bracket c⟩ :: lexemes) =
      (bracket opened c offset).1 ++ balance (bracket opened c offset).2 lexemes := by
  cases partner : Source.closerOf? c with
  | some closing => simp only [balance, bracket, partner, List.nil_append]
  | none =>
    rcases opened with _ | ⟨⟨opening, openedAt⟩, outer⟩
    · simp only [balance, bracket, partner, List.singleton_append]
    · simp only [balance, bracket, partner]
      split_ifs <;> rfl

/-- Outside comments and literals a block is walked over character by character, and brackets are
balanced. -/
theorem block_char {lexemes : List Placed}
    (reads : ReadsAt content offset (c :: rest ++ beyond))
    (tag : ∀ first ∈ beyond.head?, first = '<')
    (ends : offset + byteLength (c :: rest) = stop) (found : commentKind? (c :: rest) = none)
    (noQuote : ¬ isQuote c = true)
    (later : ∀ opened, block content stop opened (offset + c.utf8Size) =
      .ok (balance opened lexemes)) (opened : List (Char × Nat)) :
    block content stop opened offset = .ok (balance opened
      (⟨offset, if isBracket c then .bracket c else .plain c⟩ :: lexemes)) := by
  have starts := lt_of_byteLength_cons ends
  by_cases bracketed : isBracket c = true
  · rw [utf8Size_of_ascii (Source.toNat_of_isBracket bracketed)] at later
    rw [if_pos bracketed, balance_bracket]
    exact block_turn starts (turn_bracket bracketed reads) (later _)
  · rw [if_neg bracketed, balance]
    by_cases ascii : c.toNat < 0x80
    · rw [utf8Size_of_ascii ascii] at later
      have noComment : ¬ StartsComment (c :: (rest ++ beyond)) := by
        rw [← commentKind?_eq_none_iff, ← List.cons_append,
          commentKind?_append (List.cons_ne_nil c rest) tag, found]
      have turned : turn content stop opened offset = .ok (⟨[], offset + 1⟩, opened) :=
        turn_plain ascii reads noComment (Bool.eq_false_iff.mpr noQuote)
          (Bool.eq_false_iff.mpr bracketed)
      exact block_turn starts turned (later opened)
    · rw [byteLength, ← Nat.add_assoc] at ends
      exact block_high ascii reads (by omega) (later opened)

/-- A block before a closing tag, or at the end of the content, is walked over as it is read. A
comment that is closed behind the block ends the walk over it. -/
theorem block_eq (reads : ReadsAt content offset (inside ++ beyond))
    (tag : ∀ first ∈ beyond.head?, first = '<') (ends : offset + byteLength inside = stop)
    (opened : List (Char × Nat)) :
    block content stop opened offset = .ok (balance opened (scan offset inside beyond)) := by
  revert opened
  fun_induction scan offset inside beyond with
  | case1 => exact fun opened => block_past ends.ge
  | case2 offset c rest found body ih =>
    intro opened
    have starts := lt_of_byteLength_cons ends
    have whole := line_append_eq found
    obtain ⟨tail, split⟩ := opening_prefix_of_commentKind? found
    obtain ⟨rfl, rfl⟩ := List.cons.inj split
    have turned : turn content stop opened offset =
        .ok (⟨[commentEvent offset .line body], offset + 2 + byteLength body⟩, opened) :=
      turn_line reads ends
    have behind :
        offset + byteLength (CommentKind.line.opening ++ body ++ CommentKind.line.closing) =
          offset + 2 + byteLength body := stop_line body offset
    rw [whole, List.append_assoc] at reads
    rw [whole, byteLength_append, ← Nat.add_assoc, behind] at ends
    exact block_turn starts turned (ih (behind ▸ reads.skip) ends opened)
  | case3 offset c rest kind delimited found cut =>
    intro opened
    have total := reads.add_byteLength
    rw [byteLength_append] at total
    exact block_turn (lt_of_byteLength_cons ends) (turn_unclosed reads tag found delimited cut)
      (block_past (by omega))
  | case4 offset c rest kind delimited found body after cut ih =>
    intro opened
    have starts := lt_of_byteLength_cons ends
    have opens := opening_prefix_of_commentKind? found
    refine block_turn starts (turn_closed reads tag found delimited cut) ?_
    rcases stillInside_cases (append_eq_of_cutAt? opens cut) with
      ⟨inner, block, -, left⟩ | ⟨more, -, longer, ended⟩
    · rw [block, List.append_assoc] at reads
      rw [block, byteLength_append, ← Nat.add_assoc] at ends
      rw [left] at ih ⊢
      exact ih reads.skip ends opened
    · rw [longer, byteLength_append, ended, scan]
      exact block_past (by omega)
  | case5 offset c rest _ quotes cut =>
    intro opened
    have turned : turn content stop opened offset =
        .ok (⟨[.fault offset .openLiteral], stop⟩, opened) := by
      rw [turn_quote quotes reads ends, cut]
      rfl
    exact block_turn (lt_of_byteLength_cons ends) turned (block_past le_rfl)
  | case6 offset c rest _ quotes literal after cut ih =>
    intro opened
    have starts := lt_of_byteLength_cons ends
    have turned : turn content stop opened offset =
        .ok (⟨[], offset + byteLength (c :: literal)⟩, opened) := by
      rw [turn_quote quotes reads ends, cut]
      rfl
    rw [literal_append_eq cut, List.append_assoc] at reads
    rw [literal_append_eq cut, byteLength_append, ← Nat.add_assoc] at ends
    exact block_turn starts turned (ih reads.skip ends opened)
  | case7 offset c rest found quotes ih =>
    have within : offset + c.utf8Size + byteLength rest = stop := by
      rwa [byteLength, ← Nat.add_assoc] at ends
    exact block_char reads tag ends found quotes (ih reads.next within)

end Blocks

end Walk

end CfmlTidy.Script
