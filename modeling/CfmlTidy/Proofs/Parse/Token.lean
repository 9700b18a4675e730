import Mathlib
import CfmlTidy.Parse.Lexeme
import CfmlTidy.Proofs.Text.Position

/-!
# The tokens of script source

The grammar of tokens says what is skipped in script source and what is left as a word of brackets,
without a reader: a comment ends where its delimiter first occurs, a quote in a literal is doubled,
and a bracket counts where no comment and no literal covers it. `scan_token` and `token_or_open`
say together that the reader of lexemes takes exactly the tokens of the grammar and stops at the
first comment or literal that has no end.

Block comments that start with two stars are a kind of their own for the reader, with a longer
opening. For the grammar they are block comments like any other; that the two agree is the content
of `cutAt?_star`.
-/

namespace CfmlTidy.Script

open CfmlTidy.Source (isQuote)
open CfmlTidy.Text (byteLength_append)

/-- A delimiter closes a body where it occurs first. -/
def ClosesFirst (delimiter body : List Char) : Prop :=
  ¬ delimiter <:+: body ++ delimiter.dropLast

/-- The inside of a literal: a quote in it is doubled. -/
inductive Quoted (quote : Char) : List Char → Prop where
  /-- Nothing. -/
  | empty : Quoted quote []
  /-- A character other than the quote. -/
  | char {c : Char} {rest : List Char} (other : c ≠ quote) (more : Quoted quote rest) :
    Quoted quote (c :: rest)
  /-- A doubled quote. -/
  | doubled {rest : List Char} (more : Quoted quote rest) : Quoted quote (quote :: quote :: rest)

/-- Whether a comment starts a text. -/
def StartsComment (text : List Char) : Prop :=
  ∃ kind ∈ [CommentKind.line, .block, .tag], kind.opening <+: text

/-- A token at the start of a text: how it is spelled, what comes after it, and the brackets that it
leaves. -/
inductive Token : (spelled after word : List Char) → Prop where
  /-- A line comment, up to the newline. -/
  | line {body after : List Char} (sameLine : '\n' ∉ body)
    (ends : after = [] ∨ after.head? = some '\n') :
    Token (CommentKind.line.opening ++ body) after []
  /-- A comment between delimiters. -/
  | enclosed {kind : CommentKind} {body after : List Char} (kinds : kind = .block ∨ kind = .tag)
    (ends : ClosesFirst kind.closing body) :
    Token (kind.opening ++ body ++ kind.closing) after []
  /-- A literal. -/
  | literal {quote : Char} {body after : List Char} (opens : isQuote quote = true)
    (inside : Quoted quote body) (ends : after.head? ≠ some quote) :
    Token (quote :: body ++ [quote]) after []
  /-- A bracket. -/
  | bracket {c : Char} {after : List Char} (counts : isBracket c = true) : Token [c] after [c]
  /-- Any other character. -/
  | plain {c : Char} {after : List Char} (noBracket : isBracket c = false)
    (noQuote : isQuote c = false) (noComment : ¬ StartsComment (c :: after)) : Token [c] after []

/-- A text read as tokens from left to right, and the word of its brackets. -/
inductive Reads : (text word : List Char) → Prop where
  /-- Nothing is left to read. -/
  | done : Reads [] []
  /-- A token and then the rest. -/
  | token {spelled after word words : List Char} (first : Token spelled after word)
    (more : Reads after words) : Reads (spelled ++ after) (word ++ words)

section Cuts

variable {delimiter text body after : List Char}

/-- A word at the start of a text lies in its front, or takes in what stands right behind that. -/
theorem prefix_append_cases {word front back : List Char} (starts : word <+: front ++ back) :
    word <+: front ∨ ∃ first more, word = front ++ first :: more ∧ back.head? = some first := by
  rcases List.prefix_or_prefix_of_prefix starts (List.prefix_append front back) with
    within | ⟨more, rfl⟩
  · exact Or.inl within
  · rw [List.prefix_append_right_inj] at starts
    cases more with
    | nil =>
      left
      rw [List.append_nil]
    | cons first more =>
      obtain ⟨tail, rfl⟩ := starts
      exact Or.inr ⟨first, more, rfl, rfl⟩

/-- A delimiter that closes a body closes what is left of it. -/
theorem ClosesFirst.tail {c : Char} (closes : ClosesFirst delimiter (c :: body)) :
    ClosesFirst delimiter body := by
  intro early
  apply closes
  rw [List.cons_append]
  exact List.infix_cons early

/-- A delimiter that closes a body does not stand earlier. -/
theorem ClosesFirst.not_prefix {c : Char} (filled : delimiter ≠ [])
    (closes : ClosesFirst delimiter (c :: body)) (after : List Char) :
    ¬ delimiter <+: c :: (body ++ delimiter ++ after) := by
  intro early
  apply closes
  have short : delimiter.length ≤ (c :: body ++ delimiter.dropLast).length := by
    simp only [List.cons_append, List.length_cons, List.length_append, List.length_dropLast]
    omega
  have within : c :: body ++ delimiter.dropLast <+: c :: (body ++ delimiter ++ after) := by
    have whole : body ++ delimiter ++ after =
        body ++ delimiter.dropLast ++ (delimiter.getLast filled :: after) := by
      conv_lhs => rw [← List.dropLast_append_getLast filled]
      simp
    rw [whole]
    exact List.prefix_append (c :: (body ++ delimiter.dropLast)) _
  exact (List.prefix_of_prefix_length_le early within short).isInfix

/-- A text is cut where the delimiter first occurs. -/
theorem cutAt?_of_closesFirst (filled : delimiter ≠ []) (closes : ClosesFirst delimiter body) :
    cutAt? delimiter (body ++ delimiter ++ after) = some (body, after) := by
  induction body with
  | nil =>
    obtain ⟨first, others, rfl⟩ := List.exists_cons_of_ne_nil filled
    have here : (first :: others).isPrefixOf (first :: (others ++ after)) = true := by
      rw [List.isPrefixOf_iff_prefix]
      exact List.prefix_append (first :: others) after
    rw [List.nil_append, List.cons_append, cutAt?, if_pos here, ← List.cons_append, List.drop_left]
  | cons c rest ih =>
    have elsewhere : ¬ delimiter.isPrefixOf (c :: (rest ++ delimiter ++ after)) = true := by
      rw [List.isPrefixOf_iff_prefix]
      exact closes.not_prefix filled after
    rw [List.cons_append, List.cons_append, cutAt?, if_neg elsewhere, ih closes.tail]
    rfl

/-- The delimiter that a text is cut at occurs nowhere before. -/
theorem closesFirst_of_cutAt? (filled : delimiter ≠ [])
    (found : cutAt? delimiter text = some (body, after)) : ClosesFirst delimiter body := by
  induction text generalizing body with
  | nil => simp [cutAt?, filled] at found
  | cons c rest ih =>
    by_cases here : delimiter.isPrefixOf (c :: rest) = true
    · rw [cutAt?, if_pos here] at found
      obtain ⟨rfl, -⟩ := Prod.mk.inj (Option.some.inj found)
      intro early
      have longer := early.length_le
      have positive := List.length_pos_iff.mpr filled
      rw [List.nil_append, List.length_dropLast] at longer
      omega
    · have whole := cutAt?_eq_some found
      rw [cutAt?, if_neg here] at found
      obtain ⟨⟨front, back⟩, later, same⟩ := Option.map_eq_some_iff.mp found
      obtain ⟨rfl, rfl⟩ := Prod.mk.inj same
      intro early
      rw [List.cons_append, List.infix_cons_iff] at early
      rcases early with starts | inside
      · apply here
        rw [List.isPrefixOf_iff_prefix, whole]
        have within : c :: (front ++ delimiter.dropLast) <+: c :: front ++ delimiter ++ back := by
          rw [List.cons_append, List.cons_append, List.append_assoc]
          refine (List.prefix_cons_inj c).mpr ((List.prefix_append_right_inj front).mpr ?_)
          exact (List.dropLast_prefix delimiter).trans (List.prefix_append delimiter back)
        exact starts.trans within
      · exact ih later inside

end Cuts

section Literals

variable {quote : Char} {body after : List Char}

/-- A literal is cut behind its first quote that is not doubled. -/
theorem cutLiteral?_of_quoted (inside : Quoted quote body) (ends : after.head? ≠ some quote) :
    cutLiteral? quote (body ++ quote :: after) = some (body ++ [quote], after) := by
  induction inside with
  | empty =>
    cases after with
    | nil => simp [cutLiteral?]
    | cons next rest =>
      have differs : next ≠ quote := by simpa using ends
      simp [cutLiteral?, differs]
  | @char c rest other _ ih =>
    obtain ⟨next, others, split⟩ : ∃ next others, rest ++ quote :: after = next :: others :=
      List.exists_cons_of_ne_nil (by simp)
    rw [List.cons_append, split, cutLiteral?, if_neg other, ← split, ih]
    rfl
  | doubled _ ih => simp [cutLiteral?, ih]

/-- What is cut off as a literal has its quotes doubled inside, and no quote follows it. -/
theorem quoted_of_cutLiteral? {text literal : List Char}
    (found : cutLiteral? quote text = some (literal, after)) :
    ∃ body, Quoted quote body ∧ literal = body ++ [quote] ∧ text = body ++ quote :: after ∧
      after.head? ≠ some quote := by
  fun_induction cutLiteral? quote text generalizing literal with
  | case1 => contradiction
  | case2 =>
    obtain ⟨rfl, rfl⟩ := Prod.mk.inj (Option.some.inj found)
    exact ⟨[], Quoted.empty, rfl, rfl, by simp⟩
  | case3 => contradiction
  | case4 rest ih =>
    obtain ⟨⟨front, back⟩, later, same⟩ := Option.map_eq_some_iff.mp found
    obtain ⟨rfl, rfl⟩ := Prod.mk.inj same
    obtain ⟨body, inside, rfl, rfl, ends⟩ := ih later
    exact ⟨quote :: quote :: body, inside.doubled, rfl, rfl, ends⟩
  | case5 next rest differs =>
    obtain ⟨rfl, rfl⟩ := Prod.mk.inj (Option.some.inj found)
    exact ⟨[], Quoted.empty, rfl, rfl, by simpa using differs⟩
  | case6 c next rest other ih =>
    obtain ⟨⟨front, back⟩, later, same⟩ := Option.map_eq_some_iff.mp found
    obtain ⟨rfl, rfl⟩ := Prod.mk.inj same
    obtain ⟨body, inside, rfl, whole, ends⟩ := ih later
    exact ⟨c :: body, inside.char other, rfl, by rw [whole]; rfl, ends⟩

end Literals

section Comments

/-- A comment with delimiters has something to end with. -/
theorem closing_ne_nil {kind : CommentKind} (kinds : kind = .block ∨ kind = .tag) :
    kind.closing ≠ [] := by
  rcases kinds with rfl | rfl <;> decide

/-- A star that no slash follows belongs to the body of a block comment. -/
theorem cutAt?_star {more : List Char} (unclosed : more.head? ≠ some '/') :
    cutAt? ['*', '/'] ('*' :: more) =
      (cutAt? ['*', '/'] more).map fun cut => ('*' :: cut.1, cut.2) := by
  have elsewhere : ¬ List.isPrefixOf ['*', '/'] ('*' :: more) = true := by
    cases more with
    | nil => simp
    | cons c rest =>
      have differs : c ≠ '/' := by simpa using unclosed
      simp [Ne.symm differs]
  rw [cutAt?, if_neg elsewhere]

/-- The kind that is found for a comment with delimiters may have a longer opening than the kind of
the grammar; what it is longer by then starts the body. Two stars open a comment of another kind
unless a slash follows them, which closes the block. -/
theorem commentKind?_enclosed {kind : CommentKind} (kinds : kind = .block ∨ kind = .tag)
    (tail : List Char) :
    ∃ found extra, commentKind? (kind.opening ++ tail) = some found ∧ found ≠ .line ∧
      found.opening = kind.opening ++ extra ∧ found.closing = kind.closing ∧
      cutAt? kind.closing tail =
        (cutAt? kind.closing (tail.drop extra.length)).map fun cut => (extra ++ cut.1, cut.2) := by
  have unchanged (delimiter : List Char) : cutAt? delimiter tail =
      (cutAt? delimiter (tail.drop 0)).map fun cut => ([] ++ cut.1, cut.2) := by simp
  rcases kinds with rfl | rfl
  · rcases tail with _ | ⟨c, more⟩
    · exact ⟨.block, [], rfl, by simp, rfl, rfl, unchanged _⟩
    · by_cases star : c = '*'
      · subst star
        by_cases closed : more.head? = some '/'
        · obtain ⟨rest, rfl⟩ := List.head?_eq_some_iff.mp closed
          exact ⟨.block, [], rfl, by simp, rfl, rfl, unchanged _⟩
        · refine ⟨.doc, ['*'], ?_, by simp, rfl, rfl, cutAt?_star closed⟩
          rcases more with _ | ⟨d, rest⟩
          · rfl
          · have differs : d ≠ '/' := by simpa using closed
            simp [commentKind?, CommentKind.opening, differs]
      · refine ⟨.block, [], ?_, by simp, rfl, rfl, unchanged _⟩
        simp [commentKind?, CommentKind.opening, star]
  · exact ⟨.tag, [], rfl, by simp, rfl, rfl, unchanged _⟩

/-- No kind of comment is found exactly where no comment starts. -/
theorem commentKind?_eq_none_iff {text : List Char} :
    commentKind? text = none ↔ ¬ StartsComment text := by
  constructor
  · rintro absent ⟨kind, listed, tail, rfl⟩
    simp only [List.mem_cons, List.not_mem_nil, or_false] at listed
    rcases listed with rfl | enclosed
    · contradiction
    · obtain ⟨found, -, present, -⟩ := commentKind?_enclosed enclosed tail
      rw [absent] at present
      contradiction
  · intro absent
    unfold commentKind?
    split
    · exact absurd ⟨.line, by simp, _, rfl⟩ absent
    · exact absurd ⟨.block, by simp, _, rfl⟩ absent
    · exact absurd ⟨.block, by simp, _, rfl⟩ absent
    · exact absurd ⟨.block, by simp, _, rfl⟩ absent
    · exact absurd ⟨.tag, by simp, _, rfl⟩ absent
    · rfl

/-- Comments start with a slash or an angle. -/
theorem not_startsComment {c : Char} (noSlash : c ≠ '/') (noAngle : c ≠ '<') (rest : List Char) :
    ¬ StartsComment (c :: rest) := by
  rintro ⟨kind, listed, starts⟩
  simp only [List.mem_cons, List.not_mem_nil, or_false] at listed
  rcases listed with rfl | rfl | rfl
  · exact noSlash (List.cons_prefix_cons.mp starts).1.symm
  · exact noSlash (List.cons_prefix_cons.mp starts).1.symm
  · exact noAngle (List.cons_prefix_cons.mp starts).1.symm

/-- A quote is one of two characters. -/
theorem isQuote_iff {c : Char} : isQuote c = true ↔ c = '"' ∨ c = '\'' := by
  simp [isQuote]

/-- A quote starts no comment. -/
theorem not_startsComment_of_quote {c : Char} (quoted : isQuote c = true) (rest : List Char) :
    ¬ StartsComment (c :: rest) := by
  rcases isQuote_iff.mp quoted with rfl | rfl
  · exact not_startsComment (by decide) (by decide) rest
  · exact not_startsComment (by decide) (by decide) rest

/-- A bracket is one of six characters. -/
theorem isBracket_iff {c : Char} : isBracket c = true ↔ c ∈ ['(', '[', '{', ')', ']', '}'] := by
  simp [isBracket, or_assoc]

/-- A bracket starts no comment and no literal. -/
theorem of_isBracket {c : Char} (bracket : isBracket c = true) (rest : List Char) :
    ¬ StartsComment (c :: rest) ∧ isQuote c = false := by
  rw [isBracket_iff] at bracket
  simp only [List.mem_cons, List.not_mem_nil, or_false] at bracket
  rcases bracket with rfl | rfl | rfl | rfl | rfl | rfl <;>
    exact ⟨not_startsComment (by decide) (by decide) rest, by decide⟩

end Comments

section Scan

variable {c : Char} {text rest body after : List Char} {kind : CommentKind} (offset : Nat)

/-- A comment that is closed is a lexeme. -/
theorem scan_comment (found : commentKind? text = some kind) (delimited : kind ≠ .line)
    (cut : cutAt? kind.closing (text.drop kind.opening.length) = some (body, after)) :
    scan offset text [] =
      ⟨offset, .comment kind body⟩ ::
        scan (offset + Text.byteLength (kind.opening ++ body ++ kind.closing)) after [] := by
  rcases text with _ | ⟨c, rest⟩
  · contradiction
  · have inside : stillInside after [] = after := by simp [stillInside]
    rw [scan, found]
    cases kind with
    | line => contradiction
    | block | doc | html | tag =>
      simp only
      split <;> simp_all

/-- A comment that is never closed is the last lexeme. -/
theorem scan_openComment (found : commentKind? text = some kind) (delimited : kind ≠ .line)
    (cut : cutAt? kind.closing (text.drop kind.opening.length) = none) :
    scan offset text [] = [⟨offset, .openComment kind⟩] := by
  rcases text with _ | ⟨c, rest⟩
  · contradiction
  · rw [scan, found]
    cases kind with
    | line => contradiction
    | block | doc | html | tag =>
      simp only
      split <;> simp_all

/-- A line comment is a lexeme. -/
theorem scan_line (tail : List Char) :
    scan offset (CommentKind.line.opening ++ tail) [] =
      ⟨offset, .comment .line (tail.takeWhile (· != '\n'))⟩ ::
        scan (offset + 2 + Text.byteLength (tail.takeWhile (· != '\n')))
          (tail.dropWhile (· != '\n')) [] := by
  simp only [CommentKind.opening, List.cons_append, List.nil_append]
  rw [scan]
  rfl

/-- What starts with a quote is a literal, closed or not. -/
theorem scan_quote (quoted : isQuote c = true) (rest : List Char) :
    scan offset (c :: rest) [] =
      match cutLiteral? c rest with
      | none => [⟨offset, .openLiteral⟩]
      | some (text, after) =>
        ⟨offset, .literal (c :: text)⟩ ::
          scan (offset + Text.byteLength (c :: text)) after [] := by
  have none := commentKind?_eq_none_iff.mpr (not_startsComment_of_quote quoted rest)
  rw [scan, none]
  simp only [quoted, if_true]
  split <;> simp_all

/-- A literal that is closed is a lexeme. -/
theorem scan_literal {text : List Char} (quoted : isQuote c = true)
    (cut : cutLiteral? c rest = some (text, after)) :
    scan offset (c :: rest) [] =
      ⟨offset, .literal (c :: text)⟩ :: scan (offset + Text.byteLength (c :: text)) after [] := by
  rw [scan_quote offset quoted, cut]

/-- A literal that is never closed is the last lexeme. -/
theorem scan_openLiteral (quoted : isQuote c = true) (cut : cutLiteral? c rest = none) :
    scan offset (c :: rest) [] = [⟨offset, .openLiteral⟩] := by
  rw [scan_quote offset quoted, cut]

/-- Any other character is a lexeme. -/
theorem scan_char (none : ¬ StartsComment (c :: rest)) (unquoted : isQuote c = false) :
    scan offset (c :: rest) [] =
      ⟨offset, if isBracket c then .bracket c else .plain c⟩ ::
        scan (offset + c.utf8Size) rest [] := by
  rw [scan, commentKind?_eq_none_iff.mpr none]
  simp [unquoted]

end Scan

/-- Whether a lexeme is a comment or literal that is never closed. -/
def Lexeme.isOpen : Lexeme → Bool
  | .openComment _ | .openLiteral => true
  | _ => false

/-- The brackets of a lexeme. -/
def Lexeme.word : Lexeme → List Char
  | .bracket c => [c]
  | _ => []

section Steps

variable {spelled after word : List Char} (offset : Nat)

/-- A comment with delimiters is a lexeme as long as its token. -/
theorem scan_enclosed {kind : CommentKind} {body : List Char} (kinds : kind = .block ∨ kind = .tag)
    (ends : ClosesFirst kind.closing body) (after : List Char) :
    ∃ found inner, scan offset (kind.opening ++ body ++ kind.closing ++ after) [] =
      ⟨offset, .comment found inner⟩ ::
        scan (offset + Text.byteLength (kind.opening ++ body ++ kind.closing)) after [] := by
  obtain ⟨found, extra, present, delimited, opening, closing, same⟩ :=
    commentKind?_enclosed kinds (body ++ kind.closing ++ after)
  rw [cutAt?_of_closesFirst (closing_ne_nil kinds) ends] at same
  obtain ⟨⟨inner, behind⟩, cut, whole⟩ := Option.map_eq_some_iff.mp same.symm
  obtain ⟨rfl, rfl⟩ := Prod.mk.inj whole
  have start : (kind.opening ++ (extra ++ inner ++ kind.closing ++ behind)).drop
      found.opening.length = (extra ++ inner ++ kind.closing ++ behind).drop extra.length := by
    rw [opening, List.length_append, ← List.drop_drop, List.drop_left]
  have spelled : kind.opening ++ (extra ++ inner) ++ kind.closing =
      found.opening ++ inner ++ found.closing := by
    rw [opening, closing]
    simp only [List.append_assoc]
  have text : kind.opening ++ (extra ++ inner) ++ kind.closing ++ behind =
      kind.opening ++ (extra ++ inner ++ kind.closing ++ behind) := by
    simp only [List.append_assoc]
  refine ⟨found, inner, ?_⟩
  rw [text, spelled]
  refine scan_comment offset present delimited ?_
  rw [start, closing, cut]

/-- A comment with delimiters that is never closed is the last lexeme. -/
theorem scan_unclosed {kind : CommentKind} {tail : List Char} (kinds : kind = .block ∨ kind = .tag)
    (cut : cutAt? kind.closing tail = none) :
    ∃ found, scan offset (kind.opening ++ tail) [] = [⟨offset, .openComment found⟩] := by
  obtain ⟨found, extra, present, delimited, opening, closing, same⟩ :=
    commentKind?_enclosed kinds tail
  have start : (kind.opening ++ tail).drop found.opening.length = tail.drop extra.length := by
    rw [opening, List.length_append, ← List.drop_drop, List.drop_left]
  refine ⟨found, scan_openComment offset present delimited ?_⟩
  rw [start, closing]
  rw [cut] at same
  exact Option.map_eq_none_iff.mp same.symm

/-- The lexeme of a token stands where the token does and leaves the same brackets, and the lexemes
after it are those of the text after the token. A token that starts with a quote is a literal. -/
theorem scan_token (first : Token spelled after word) :
    ∃ lexeme, lexeme.isOpen = false ∧ lexeme.word = word ∧
      (∀ quote ∈ spelled.head?, isQuote quote = true → lexeme = .literal spelled) ∧
      scan offset (spelled ++ after) [] =
        ⟨offset, lexeme⟩ :: scan (offset + Text.byteLength spelled) after [] := by
  cases first with
  | @line body _ sameLine ends =>
    have inside : ∀ c ∈ body, (c != '\n') = true := by
      intro c listed
      rw [bne_iff_ne]
      rintro rfl
      exact sameLine listed
    have stops : after.takeWhile (· != '\n') = [] ∧ after.dropWhile (· != '\n') = after := by
      rcases ends with rfl | newline
      · simp
      · obtain ⟨rest, rfl⟩ := List.head?_eq_some_iff.mp newline
        simp
    refine ⟨.comment .line body, rfl, rfl, by simp [CommentKind.opening, isQuote], ?_⟩
    rw [List.append_assoc, scan_line, List.takeWhile_append_of_pos inside,
      List.dropWhile_append_of_pos inside, stops.1, stops.2, List.append_nil, byteLength_append,
      ← Nat.add_assoc]
    rfl
  | enclosed kinds ends =>
    obtain ⟨found, inner, lexed⟩ := scan_enclosed offset kinds ends after
    refine ⟨.comment found inner, rfl, rfl, ?_, lexed⟩
    rcases kinds with rfl | rfl <;> simp [CommentKind.opening, isQuote]
  | @literal quote body _ opens inside ends =>
    have lexed := scan_literal offset opens (cutLiteral?_of_quoted inside ends)
    refine ⟨.literal (quote :: body ++ [quote]), rfl, rfl, fun _ _ _ => rfl, ?_⟩
    simpa using lexed
  | @bracket c _ counts =>
    obtain ⟨noComment, noQuote⟩ := of_isBracket counts after
    have lexed := scan_char offset noComment noQuote
    rw [if_pos counts] at lexed
    exact ⟨.bracket c, rfl, rfl, by simp [noQuote], lexed⟩
  | @plain c _ noBracket noQuote noComment =>
    have lexed := scan_char offset noComment noQuote
    rw [noBracket] at lexed
    exact ⟨.plain c, rfl, rfl, by simp [noQuote], lexed⟩

/-- A text starts with a token, unless it starts with a comment or literal that is never closed,
which is then its only lexeme. -/
theorem token_or_open {text : List Char} (filled : text ≠ []) :
    (∃ spelled after word, text = spelled ++ after ∧ Token spelled after word) ∨
      ∃ lexeme, lexeme.isOpen = true ∧ scan offset text [] = [⟨offset, lexeme⟩] := by
  by_cases comment : StartsComment text
  · obtain ⟨kind, listed, tail, rfl⟩ := comment
    simp only [List.mem_cons, List.not_mem_nil, or_false] at listed
    rcases listed with rfl | kinds
    · have sameLine : '\n' ∉ tail.takeWhile (· != '\n') := by
        intro listed
        simpa using List.mem_takeWhile_imp listed
      have ends : tail.dropWhile (· != '\n') = [] ∨
          (tail.dropWhile (· != '\n')).head? = some '\n' := by
        cases left : tail.dropWhile (· != '\n') with
        | nil => exact Or.inl rfl
        | cons c rest =>
          have stop := List.head_dropWhile_not (· != '\n') (l := tail) (by simp [left])
          simpa [left] using stop
      refine Or.inl ⟨_, _, [], ?_, Token.line sameLine ends⟩
      simp
    · cases cut : cutAt? kind.closing tail with
      | none =>
        obtain ⟨found, lexed⟩ := scan_unclosed offset kinds cut
        exact Or.inr ⟨.openComment found, rfl, lexed⟩
      | some parts =>
        obtain ⟨body, after⟩ := parts
        have ends := closesFirst_of_cutAt? (closing_ne_nil kinds) cut
        obtain rfl := cutAt?_eq_some cut
        refine Or.inl ⟨_, after, [], ?_, Token.enclosed kinds ends⟩
        simp only [List.append_assoc]
  · obtain ⟨c, rest, rfl⟩ := List.exists_cons_of_ne_nil filled
    by_cases quoted : isQuote c = true
    · cases cut : cutLiteral? c rest with
      | none => exact Or.inr ⟨.openLiteral, rfl, scan_openLiteral offset quoted cut⟩
      | some parts =>
        obtain ⟨literal, after⟩ := parts
        obtain ⟨body, inside, -, rfl, ends⟩ := quoted_of_cutLiteral? cut
        refine Or.inl ⟨_, after, [], ?_, Token.literal quoted inside ends⟩
        simp
    · left
      by_cases bracket : isBracket c = true
      · exact ⟨[c], rest, [c], rfl, Token.bracket bracket⟩
      · exact ⟨[c], rest, [], rfl, Token.plain (Bool.eq_false_iff.mpr bracket)
          (Bool.eq_false_iff.mpr quoted) comment⟩

/-- A token takes at least one character. -/
theorem Token.spelled_ne_nil (first : Token spelled after word) : spelled ≠ [] := by
  cases first with
  | enclosed kinds _ => rcases kinds with rfl | rfl <;> simp [CommentKind.opening]
  | line | literal | bracket | plain => simp [CommentKind.opening]

/-- Induction along the tokens of a text: it ends, it starts with a comment or literal that is never
closed, or it starts with a token. The induction is on the length of the text, since a token takes
at least one character. -/
@[elab_as_elim]
theorem scan_induction {motive : Nat → List Char → Prop} (offset : Nat) (text : List Char)
    (ended : ∀ offset, motive offset [])
    (opened : ∀ offset text lexeme, lexeme.isOpen = true →
      scan offset text [] = [⟨offset, lexeme⟩] → motive offset text)
    (token : ∀ offset spelled after word, Token spelled after word →
      motive (offset + Text.byteLength spelled) after → motive offset (spelled ++ after)) :
    motive offset text := by
  induction size : text.length using Nat.strong_induction_on generalizing text offset with
  | _ size shorter =>
    by_cases empty : text = []
    · rw [empty]
      exact ended offset
    · rcases token_or_open offset empty with
        ⟨spelled, after, word, rfl, first⟩ | ⟨lexeme, isOpen, lexed⟩
      · have positive := List.length_pos_iff.mpr first.spelled_ne_nil
        rw [List.length_append] at size
        exact token offset spelled after word first (shorter after.length (by omega) _ _ rfl)
      · exact opened offset text lexeme isOpen lexed

end Steps

end CfmlTidy.Script
