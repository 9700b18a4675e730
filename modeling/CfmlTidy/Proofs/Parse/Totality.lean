import Mathlib
import CfmlTidy.Proofs.Parse.Turn

/-!
# Structural reading never breaks down

A walk over markup looks for comments and script blocks in a copy of the content in lower case and
uses the offsets that it finds there in the content. The copy has its characters at the same
offsets, and what is looked for starts with an angle, which has no case. So the walk over a file
meets what reading the file meets, and a file is read unless a null character stands in it.
-/

namespace CfmlTidy.Script

open CfmlTidy.Text

section Words

variable {word text before after : List Char}

/-- A text starts with a word, whatever the case of the text, when it does in lower case. -/
theorem startsWith_eq (word text : List Char) :
    startsWith word text = word.isPrefixOf (text.map lower) := by
  induction word generalizing text with
  | nil => simp [startsWith]
  | cons letter word ih =>
    cases text with
    | nil => rfl
    | cons c text => rw [startsWith, ih, List.map_cons, List.isPrefixOf]

/-- What is left of a text that is cut before a word starts with the word. -/
theorem startsWith_of_cutBefore? (found : cutBefore? word text = some (before, after)) :
    startsWith word after = true := by
  induction text generalizing before with
  | nil => contradiction
  | cons c rest ih =>
    rw [cutBefore?] at found
    split_ifs at found with here
    · obtain ⟨-, rfl⟩ := Prod.mk.inj (Option.some.inj found)
      exact here
    · obtain ⟨cut, later, same⟩ := Option.map_eq_some_iff.mp found
      obtain ⟨-, rfl⟩ := Prod.mk.inj same
      exact ih later

/-- A word without letters starts a text when it starts its copy in lower case. -/
theorem prefix_lowered_iff
    (caseless : ∀ a ∈ word, ¬ ('A' ≤ a ∧ a ≤ 'Z') ∧ ¬ ('a' ≤ a ∧ a ≤ 'z')) :
    word <+: text.map lower ↔ word <+: text := by
  induction word generalizing text with
  | nil => simp
  | cons a word ih =>
    obtain ⟨first, others⟩ := List.forall_mem_cons.mp caseless
    cases text with
    | nil => simp
    | cons c text =>
      rw [List.map_cons, List.cons_prefix_cons, List.cons_prefix_cons, ih others, eq_comm,
        lower_eq_iff first.1 first.2, eq_comm]

/-- The kind of a comment of markup is told by its opening. -/
theorem markupComment?_eq (text : List Char) :
    markupComment? text =
      if CommentKind.tag.opening <+: text then some .tag
      else if CommentKind.html.opening <+: text then some .html
      else none := by
  unfold markupComment?
  split
  · simp [CommentKind.opening]
  · next tail closed =>
    have hyphen : ¬ ['-'] <+: tail := not_prefix_of_ne closed
    simp [CommentKind.opening, hyphen]
  · next tag html => rw [if_neg (not_prefix_of_ne tag), if_neg (not_prefix_of_ne html)]

/-- Markup has a comment where it has two hyphens behind an angle and an exclamation mark. -/
theorem markupComment?_eq_none_iff :
    markupComment? text = none ↔ ¬ CommentKind.html.opening <+: text := by
  have longer : CommentKind.html.opening <+: CommentKind.tag.opening := by decide
  rw [markupComment?_eq]
  split_ifs with tag html
  · simpa using longer.trans tag
  · simpa using html
  · simpa using html

end Words

namespace Walk

variable {content text rest word : List Char} {kind : CommentKind} {c : Char} {pos : Nat}

section Search

/-- A word is found at the start, or where it is found behind the first character. -/
theorem find?_cons (word : List Char) (c : Char) (rest : List Char) :
    find? word (c :: rest) =
      if word <+: c :: rest then some 0 else (find? word rest).map (c.utf8Size + ·) := by
  rw [find?, cutAt?]
  simp only [List.isPrefixOf_iff_prefix]
  split_ifs
  · rfl
  · rw [find?, Option.map_map, Option.map_map]
    rfl

/-- A word is found in lower case where the text can be cut before it, whatever its case. -/
theorem find?_lowered (filled : word ≠ []) (text : List Char) :
    find? word (text.map lower) = (cutBefore? word text).map (byteLength ·.1) := by
  induction text with
  | nil =>
    rw [List.map_nil, find?, cutAt?, if_neg (by simpa using filled)]
    rfl
  | cons c rest ih =>
    rw [List.map_cons, find?_cons, ih, cutBefore?, startsWith_eq, List.map_cons, utf8Size_lower]
    simp only [List.isPrefixOf_iff_prefix]
    split_ifs
    · rfl
    · rw [Option.map_map, Option.map_map]
      rfl

/-- A word that a text starts with is found at once. -/
theorem find?_of_prefix (filled : word ≠ []) (starts : word <+: text) :
    find? word text = some 0 := by
  cases text with
  | nil => exact absurd (List.prefix_nil.mp starts) filled
  | cons c rest => rw [find?_cons, if_pos starts]

/-- A word that a text does not start with is found later. -/
theorem pos_of_find? {before : Nat} (other : ¬ word <+: text)
    (found : find? word text = some before) : 0 < before := by
  cases text with
  | nil =>
    have filled : ¬ word.isEmpty := fun empty => other (by simp [List.isEmpty_iff.mp empty])
    rw [find?, cutAt?, if_neg filled] at found
    contradiction
  | cons c rest =>
    rw [find?_cons, if_neg other] at found
    obtain ⟨more, -, rfl⟩ := Option.map_eq_some_iff.mp found
    exact Nat.add_pos_left c.utf8Size_pos more

end Search

section Turns

/-- A comment of markup is read as the kind that is found. -/
theorem markupComment_eq (reads : ReadsAt content pos text)
    (found : markupComment? text = some kind) :
    markupComment content pos = comment content kind pos := by
  rw [markupComment?_eq] at found
  rw [markupComment, cutFrom_eq_ok_iff.mpr reads]
  simp only [bind, Except.bind, List.isPrefixOf_iff_prefix]
  split_ifs at found ⊢ <;> cases found <;> rfl

/-- A comment of markup and a script block do not start at one place. -/
theorem not_prefix_blockOpening (opens : CommentKind.html.opening <+: text) :
    ¬ blockOpening <+: text := by
  intro block
  rcases List.prefix_or_prefix_of_prefix opens block with within | within
  · exact absurd within (by decide)
  · exact absurd within (by decide)

/-- Comments of markup open where they do in lower case. -/
theorem html_lowered_iff :
    CommentKind.html.opening <+: text.map lower ↔ CommentKind.html.opening <+: text :=
  prefix_lowered_iff (by simp [CommentKind.opening])

/-- What is looked at in a turn over markup. -/
theorem markupTurn_eq (reads : ReadsAt content pos text) :
    markupTurn content pos =
      match find? CommentKind.html.opening (text.map lower),
        find? blockOpening (text.map lower) with
      | some comment, some block =>
        if comment < block then (markupComment content (pos + comment)).map some
        else (scriptBlock content (pos + block)).map some
      | some comment, none => (markupComment content (pos + comment)).map some
      | none, some block => (scriptBlock content (pos + block)).map some
      | none, none => .ok none := by
  rw [markupTurn, cutFrom_eq_ok_iff.mpr reads.lowered, ok_bind]
  cases find? CommentKind.html.opening (text.map lower) <;>
    cases find? blockOpening (text.map lower) <;>
    simp only [bind_ok_eq_map, pure, Except.pure, Nat.add_lt_add_iff_left]

/-- In a turn at a comment of markup the comment is read. -/
theorem markupTurn_comment (reads : ReadsAt content pos text)
    (found : markupComment? text = some kind) :
    markupTurn content pos = (comment content kind pos).map some := by
  have opens : CommentKind.html.opening <+: text.map lower := by
    rw [html_lowered_iff]
    by_contra other
    rw [markupComment?_eq_none_iff.mpr other] at found
    contradiction
  rw [← markupComment_eq reads found, markupTurn_eq reads, find?_of_prefix (by decide) opens]
  cases block : find? blockOpening (text.map lower) with
  | none => rfl
  | some before => exact if_pos (pos_of_find? (not_prefix_blockOpening opens) block)

/-- In a turn at a script block the block is read. -/
theorem markupTurn_block (reads : ReadsAt content pos text)
    (opens : startsWith blockOpening text = true) :
    markupTurn content pos = (scriptBlock content pos).map some := by
  rw [startsWith_eq, List.isPrefixOf_iff_prefix] at opens
  rw [markupTurn_eq reads, find?_of_prefix (by decide) opens]
  cases find? CommentKind.html.opening (text.map lower) with
  | none => rfl
  | some before => exact if_neg (Nat.not_lt_zero before)

/-- Where neither starts, the turn is the one behind the character. -/
theorem markupTurn_other (reads : ReadsAt content pos (c :: rest))
    (noComment : markupComment? (c :: rest) = none)
    (noBlock : ¬ startsWith blockOpening (c :: rest) = true) :
    markupTurn content pos = markupTurn content (pos + c.utf8Size) := by
  rw [startsWith_eq, List.isPrefixOf_iff_prefix] at noBlock
  rw [markupComment?_eq_none_iff, ← html_lowered_iff] at noComment
  rw [markupTurn_eq reads, markupTurn_eq reads.next]
  rw [List.map_cons] at *
  rw [find?_cons, find?_cons, if_neg noBlock, if_neg noComment, utf8Size_lower]
  cases find? CommentKind.html.opening (rest.map lower) <;>
    cases find? blockOpening (rest.map lower) <;>
    simp [Nat.add_assoc]

end Turns

section Blocks

variable {head body inside beyond : List Char}

/-- A script block whose opening tag has no end goes up to the end of the content. -/
theorem scriptBlock_openTag (reads : ReadsAt content pos text) (cut : cutAt? ['>'] text = none) :
    scriptBlock content pos = .ok ⟨[.fault pos .openTag], byteLength content⟩ := by
  rw [scriptBlock, cutFrom_eq_ok_iff.mpr reads, ok_bind, find?, cut]
  rfl

/-- A script block without a closing tag is read up to the end of the content. -/
theorem scriptBlock_openBlock (reads : ReadsAt content pos text)
    (cut : cutAt? ['>'] text = some (head, body)) (closed : cutBefore? blockClosing body = none) :
    scriptBlock content pos =
      .ok ⟨.fault pos .openBlock :: readBlock (pos + byteLength head + 1) body [],
        byteLength content⟩ := by
  have behind := readsAt_afterTag reads cut
  have whole : ReadsAt content (pos + byteLength head + 1) (body ++ []) := by
    rwa [List.append_nil]
  have met := block_eq whole (by simp) behind.add_byteLength []
  rw [scriptBlock, cutFrom_eq_ok_iff.mpr reads, ok_bind, find?, cut]
  simp only [Option.map_some, cutFrom_eq_ok_iff.mpr behind.lowered, ok_bind,
    find?_lowered (show blockClosing ≠ [] by decide), closed, Option.map_none, met]
  rfl

/-- A script block is read up to its closing tag, and the walk goes on behind the tag. -/
theorem scriptBlock_closed (reads : ReadsAt content pos text)
    (cut : cutAt? ['>'] text = some (head, body))
    (closed : cutBefore? blockClosing body = some (inside, beyond)) :
    scriptBlock content pos =
      .ok ⟨readBlock (pos + byteLength head + 1) inside beyond,
        (cutAt? ['>'] beyond).elim (byteLength content) fun tag =>
          pos + byteLength head + 1 + byteLength inside + byteLength tag.1 + 1⟩ := by
  have behind := readsAt_afterTag reads cut
  have split := behind
  rw [cutBefore?_eq_some closed] at split
  have tag : ∀ first ∈ beyond.head?, first = '<' := by
    intro first listed
    obtain ⟨rest, rfl⟩ := List.head?_eq_some_iff.mp listed
    exact eq_of_startsWith (startsWith_of_cutBefore? closed)
  have met := block_eq split tag rfl []
  rw [scriptBlock, cutFrom_eq_ok_iff.mpr reads, ok_bind, find?, cut]
  simp only [Option.map_some, cutFrom_eq_ok_iff.mpr behind.lowered, ok_bind,
    find?_lowered (show blockClosing ≠ [] by decide), closed, met,
    cutFrom_eq_ok_iff.mpr split.skip]
  rw [find?]
  cases cutAt? ['>'] beyond <;> rfl

end Blocks

section Markup

variable {met more : List Event} {next : Nat}

/-- A walk over markup goes on behind the stretch of its first turn. -/
theorem markup_turn (inside : pos < byteLength content)
    (turned : markupTurn content pos = .ok (some ⟨met, next⟩))
    (later : markup content next = .ok more) : markup content pos = .ok (met ++ more) := by
  have gains : pos < next := lt_next_of_markupTurn turned
  rw [markup, if_pos inside, turned]
  simp only [if_pos gains, later, Except.map]

/-- Behind the end of markup nothing is met. -/
theorem markup_past (past : byteLength content ≤ pos) : markup content pos = .ok [] := by
  rw [markup, if_neg (Nat.not_lt.mpr past)]

/-- A walk over markup goes on behind a character at which nothing starts. Both walks take the same
stretch, which ends behind both places. -/
theorem markup_other (reads : ReadsAt content pos (c :: rest))
    (same : markupTurn content pos = markupTurn content (pos + c.utf8Size)) :
    markup content pos = markup content (pos + c.utf8Size) := by
  have total := reads.add_byteLength
  have enters := lt_of_byteLength_cons total
  by_cases inside : pos + c.utf8Size < byteLength content
  · rw [markup, markup.eq_def content (pos + c.utf8Size), if_pos enters, if_pos inside, same]
    cases turned : markupTurn content (pos + c.utf8Size) with
    | error => rfl
    | ok found =>
      cases found with
      | none => rfl
      | some stretch =>
        simp only [if_pos (lt_next_of_markupTurn turned),
          if_pos (lt_next_of_markupTurn (same.trans turned))]
  · obtain rfl : rest = [] := by
      cases rest with
      | nil => rfl
      | cons next others =>
        have positive := byteLength_cons_pos next others
        rw [byteLength] at total
        omega
    have ended : markupTurn content (pos + c.utf8Size) = .ok none := markupTurn_eq reads.next
    rw [markup, if_pos enters, same, ended, markup_past (Nat.le_of_not_lt inside)]

/-- Markup is walked over as it is read. -/
theorem markup_eq (reads : ReadsAt content pos text) :
    markup content pos = .ok (readMarkup pos text) := by
  have enters {offset : Nat} {c : Char} {rest : List Char}
      (reads : ReadsAt content offset (c :: rest)) : offset < byteLength content :=
    lt_of_byteLength_cons reads.add_byteLength
  fun_induction readMarkup pos text with
  | case1 offset => exact markup_past reads.add_byteLength.ge
  | case2 offset c rest kind found cut =>
    have turned := markupTurn_comment reads found
    rw [comment_open reads (opening_prefix_of_markupComment? found) cut] at turned
    exact markup_turn (enters reads) turned (markup_past le_rfl)
  | case3 offset c rest kind found body after cut ih =>
    have opens := opening_prefix_of_markupComment? found
    have turned := markupTurn_comment reads found
    rw [comment_closed reads opens cut] at turned
    exact markup_turn (enters reads) turned (ih (readsAt_afterComment reads opens cut))
  | case4 offset c rest _ opens cut =>
    have turned := markupTurn_block reads opens
    rw [scriptBlock_openTag reads cut] at turned
    exact markup_turn (enters reads) turned (markup_past le_rfl)
  | case5 offset c rest _ opens head body cut start closed =>
    have turned := markupTurn_block reads opens
    rw [scriptBlock_openBlock reads cut closed] at turned
    have walked := markup_turn (enters reads) turned (markup_past le_rfl)
    rwa [List.append_nil] at walked
  | case6 offset c rest _ opens head body cut start inside beyond closed ih =>
    have turned := markupTurn_block reads opens
    rw [scriptBlock_closed reads cut closed] at turned
    have split := readsAt_afterTag reads cut
    rw [cutBefore?_eq_some closed] at split
    refine markup_turn (enters reads) turned ?_
    cases ended : cutAt? ['>'] beyond with
    | none => exact markup_past le_rfl
    | some parts =>
      obtain ⟨tag, after⟩ := parts
      exact ih tag after ended (readsAt_afterTag split.skip ended)
  | case7 offset c rest noComment noBlock ih =>
    rw [markup_other reads (markupTurn_other reads noComment noBlock)]
    exact ih reads.next

end Markup

/-- A file is walked over as it is read. -/
theorem file_eq (path : String) (content : List Char) :
    file path content = .ok (events path content) := by
  rw [file, events]
  split_ifs
  · refine block_eq ?_ (by simp) (Nat.zero_add _) []
    rw [List.append_nil]
    exact ReadsAt.start content
  · exact markup_eq (ReadsAt.start content)

end Walk

section Totality

variable {content : List Char} {offset : Nat}

/-- The first null character is found behind a front that has none. -/
theorem nullOffset?_eq_some_iff :
    nullOffset? content = some offset ↔
      ∃ before after, content = before ++ '\x00' :: after ∧ '\x00' ∉ before ∧
        offset = byteLength before := by
  constructor
  · intro found
    induction content generalizing offset with
    | nil => contradiction
    | cons c rest ih =>
      rw [nullOffset?] at found
      split_ifs at found with null
      · exact ⟨[], rest, by rw [null]; rfl, by simp, (Option.some.inj found).symm⟩
      · obtain ⟨inner, later, rfl⟩ := Option.map_eq_some_iff.mp found
        obtain ⟨before, after, rfl, none, rfl⟩ := ih later
        refine ⟨c :: before, after, rfl, ?_, Nat.add_comm _ _⟩
        exact List.not_mem_cons_of_ne_of_not_mem (Ne.symm null) none
  · rintro ⟨before, after, rfl, none, rfl⟩
    induction before with
    | nil => rfl
    | cons c before ih =>
      obtain ⟨other, others⟩ := not_or.mp (List.mem_cons.not.mp none)
      rw [List.cons_append, nullOffset?, if_neg (Ne.symm other), ih others, Option.map_some,
        byteLength, Nat.add_comm]

/-- Reading fails exactly where a null character stands, at the first one. -/
theorem parse_eq_error_iff {path : String} {error : ParseError} :
    parse path content = .error error ↔
      ∃ before after, content = before ++ '\x00' :: after ∧ '\x00' ∉ before ∧
        error = .located path (positionAt content (byteLength before))
          "Binary content cannot be parsed" := by
  rw [parse]
  cases found : nullOffset? content with
  | none =>
    have text := nullOffset?_eq_none_iff.mp found
    simp only [reduceCtorEq, false_iff]
    rintro ⟨before, after, rfl, -⟩
    simp at text
  | some offset =>
    obtain ⟨before, after, whole, none, rfl⟩ := nullOffset?_eq_some_iff.mp found
    simp only [Except.error.injEq]
    constructor
    · rintro rfl
      exact ⟨before, after, whole, none, rfl⟩
    · rintro ⟨before', after', whole', none', rfl⟩
      have same := nullOffset?_eq_some_iff.mpr ⟨before', after', whole', none', rfl⟩
      rw [Option.some.inj (found.symm.trans same)]

/-- Structural reading is total. It fails exactly for a content with a null character, and tells the
place of the first one. Any other content is walked over by byte offsets to the end, with all cuts
between characters and all bytes and lines there are, and what is met is what the file is read as.
Places are told of every offset. Every turn over a block or over markup goes on at a later offset,
wherever it stands. -/
theorem parse_total (path : String) (content : List Char) :
    (∀ error, parse path content = .error error ↔
      ∃ before after, content = before ++ '\x00' :: after ∧ '\x00' ∉ before ∧
        error = .located path (positionAt content (byteLength before))
          "Binary content cannot be parsed") ∧
    ('\x00' ∉ content → ∃ met, Walk.file path content = .ok met ∧
      parse path content = .ok
        { (Parsed.ofContent path content true).withIssues (met.filterMap (issue? content)) with
          comments := met.filterMap (comment? content) }) ∧
    (∀ offset, Walk.placeAt content offset = .ok (positionAt content offset)) ∧
    (∀ stop opened pos stretch left, pos < stop →
      Walk.turn content stop opened pos = .ok (stretch, left) → pos < stretch.next) ∧
    (∀ pos stretch, Walk.markupTurn content pos = .ok (some stretch) → pos < stretch.next) := by
  refine ⟨fun error => parse_eq_error_iff, ?_, Walk.placeAt_eq content, ?_, ?_⟩
  · intro text
    refine ⟨events path content, Walk.file_eq path content, ?_⟩
    rw [parse, nullOffset?_eq_none_iff.mpr text]
  · intro stop opened pos stretch left inside turned
    exact Walk.lt_next_of_turn inside turned
  · intro pos stretch turned
    exact Walk.lt_next_of_markupTurn turned

-- What is met in a closed text is found by unfolding.
attribute [local semireducible] readMarkup scan Walk.block

/-- A page in which a comment of a script block is closed behind the block, with characters of two
bytes before, in and behind the comment. -/
def straddlingPage : List Char := "é<cfscript>/*é</CFSCRIPT><!-- ü --> */ü".toList

/-- The comment of the block of the page. -/
def straddlingComment : Event := .comment .block "é</CFSCRIPT><!-- ü --> ".toList 12 41

/-- A comment that is closed behind its block does not break the walk down. -/
theorem parse_total_straddlingPage :
    '\x00' ∉ straddlingPage ∧
      Walk.file "page.cfm" straddlingPage =
        .ok [straddlingComment, .comment .html " ü ".toList 27 38] ∧
      (∃ parsed, parse "page.cfm" straddlingPage = .ok parsed ∧ parsed.success = true ∧
        parsed.comments = [⟨.block, "é</CFSCRIPT><!-- ü --> ".toList, ⟨1, 12⟩, ⟨1, 39⟩⟩,
          ⟨.html, " ü ".toList, ⟨1, 26⟩, ⟨1, 36⟩⟩]) ∧
      (Walk.turn straddlingPage 16 [] 12 = .ok (⟨[straddlingComment], 41⟩, []) ∧ 12 < 41) ∧
      (Walk.markupTurn straddlingPage 0 = .ok (some ⟨[straddlingComment], 27⟩) ∧ 0 < 27) := by
  have text : '\x00' ∉ straddlingPage := by decide
  have read : events "page.cfm" straddlingPage =
      [straddlingComment, .comment .html " ü ".toList 27 38] := by decide +kernel
  have turned : Walk.turn straddlingPage 16 [] 12 = .ok (⟨[straddlingComment], 41⟩, []) := by
    decide +kernel
  have markup : Walk.markupTurn straddlingPage 0 = .ok (some ⟨[straddlingComment], 27⟩) := by
    decide +kernel
  obtain ⟨-, walked, -, turns, markupTurns⟩ := parse_total "page.cfm" straddlingPage
  obtain ⟨met, walk, result⟩ := walked text
  rw [Walk.file_eq, read] at walk
  obtain rfl := Except.ok.inj walk
  refine ⟨text, ?_, ⟨_, result, ?_, ?_⟩, ⟨turned, ?_⟩, ⟨markup, ?_⟩⟩
  · rw [Walk.file_eq, read]
  · rfl
  · decide
  · exact turns 16 [] 12 _ [] (by decide) turned
  · exact markupTurns 0 _ markup

end Totality

end CfmlTidy.Script
