import Mathlib
import CfmlTidy.Proofs.Encoding.Utf8
import CfmlTidy.Proofs.Parse.Grammar

/-!
# Masked source and lexemes

Masking and structural reading go over script source each in its own way: one blanks out what is no
code, byte by byte, the other collects lexemes. On source in which every comment and literal is
closed and no literal runs over a line end they agree on the brackets, each at its byte. The proof
follows the tokens: masking a token leaves its brackets and as many bytes as the token has, and then
goes on in code.

A literal over a line end is where they part: masking ends it there, and structural reading goes on.
-/

namespace CfmlTidy.Source

open CfmlTidy.Encoding (toNat_char toNat_byte)
open CfmlTidy.Script (isBracket isBracket_iff isQuote_iff)
open CfmlTidy.Text (byteLength)

/-- The brackets among bytes, with the offsets at which they stand. -/
def bracketBytes : (offset : Nat) → (bytes : List UInt8) → List (Nat × Char)
  | _, [] => []
  | offset, byte :: rest =>
    if isBracket (Char.ofNat byte.toNat) then
      (offset, Char.ofNat byte.toNat) :: bracketBytes (offset + 1) rest
    else bracketBytes (offset + 1) rest

section Bytes

/-- The brackets among bytes are those of the front and then those of the rest, further behind by
the bytes of the front. -/
theorem bracketBytes_append (offset : Nat) (front back : List UInt8) :
    bracketBytes offset (front ++ back) =
      bracketBytes offset front ++ bracketBytes (offset + front.length) back := by
  induction front generalizing offset with
  | nil => rfl
  | cons byte rest ih =>
    have later : offset + 1 + rest.length = offset + (byte :: rest).length := by
      rw [List.length_cons]
      omega
    rw [List.cons_append, bracketBytes, bracketBytes, ih, later]
    split_ifs
    · rfl
    · rfl

/-- Brackets are ASCII characters. -/
theorem toNat_of_isBracket {c : Char} (bracket : isBracket c = true) : c.toNat < 0x80 := by
  have listed := isBracket_iff.mp bracket
  fin_cases listed <;> decide

/-- Bytes beyond ASCII are no brackets, so a character of several bytes has none among them. -/
theorem bracketBytes_eq_nil {bytes : List UInt8} (high : ∀ byte ∈ bytes, 0x80 ≤ byte.toNat)
    (offset : Nat) : bracketBytes offset bytes = [] := by
  induction bytes generalizing offset with
  | nil => rfl
  | cons byte rest ih =>
    obtain ⟨first, others⟩ := List.forall_mem_cons.mp high
    have small := byte.toNat_lt
    have value := toNat_char (show byte.toNat.isValidChar from Or.inl (by omega))
    have plain : ¬ isBracket (Char.ofNat byte.toNat) = true := by
      intro bracket
      have ascii := toNat_of_isBracket bracket
      omega
    rw [bracketBytes, if_neg plain, ih others]

/-- Of the bytes of a character, the only one of a bracket is a bracket. -/
theorem bracketBytes_char (offset : Nat) (c : Char) :
    bracketBytes offset (String.utf8EncodeChar c) =
      if isBracket c = true then [(offset, c)] else [] := by
  by_cases ascii : c.toNat < 0x80
  · have same : Char.ofNat (Encoding.Utf8.byteOf c).toNat = c := by
      rw [Encoding.Utf8.byteOf, toNat_byte (by omega), Char.ofNat_toNat]
    rw [Encoding.Utf8.encodeChar_of_ascii ascii, bracketBytes, bracketBytes, same]
  · have plain : ¬ isBracket c = true := fun bracket => ascii (toNat_of_isBracket bracket)
    rw [if_neg plain]
    exact bracketBytes_eq_nil (Encoding.Utf8.high_of_mem_encodeChar ascii) offset

/-- The brackets of a text in bytes, one character after the other. -/
theorem bracketBytes_cons (offset : Nat) (c : Char) (rest : List Char) :
    bracketBytes offset (Encoding.Utf8.encode (c :: rest)) =
      (if isBracket c = true then [(offset, c)] else []) ++
        bracketBytes (offset + c.utf8Size) (Encoding.Utf8.encode rest) := by
  rw [Encoding.Utf8.encode, List.flatMap_cons, bracketBytes_append, bracketBytes_char,
    String.length_utf8EncodeChar]
  rfl

/-- Text without brackets only moves the offset. -/
theorem bracketBytes_cover {cover : List Char} (plain : ∀ c ∈ cover, isBracket c = false)
    (offset : Nat) (rest : List Char) :
    bracketBytes offset (Encoding.Utf8.encode (cover ++ rest)) =
      bracketBytes (offset + byteLength cover) (Encoding.Utf8.encode rest) := by
  induction cover generalizing offset with
  | nil => rfl
  | cons c more ih =>
    obtain ⟨first, others⟩ := List.forall_mem_cons.mp plain
    rw [List.cons_append, bracketBytes_cons, first, ih others, byteLength, ← Nat.add_assoc]
    rfl

end Bytes

section Masks

open CfmlTidy.Script (ClosesFirst Quoted StartsComment Token closing_ne_nil
  not_startsComment_of_quote of_isBracket)
open CfmlTidy.Text (byteLength_append)

/-- The blanks that stand for a text. -/
def blanks (text : List Char) : List Char := text.flatMap blanked

/-- The first character is blanked out first. -/
theorem blanks_cons (c : Char) (rest : List Char) : blanks (c :: rest) = blanked c ++ blanks rest :=
  rfl

/-- Blanking out goes through one text and then through the other. -/
theorem blanks_append (front back : List Char) :
    blanks (front ++ back) = blanks front ++ blanks back := List.flatMap_append

/-- Blanks are spaces and newlines. -/
theorem of_mem_blanks {text : List Char} {c : Char} (listed : c ∈ blanks text) :
    c = ' ' ∨ c = '\n' := by
  obtain ⟨source, -, inside⟩ := List.mem_flatMap.mp listed
  unfold blanked at inside
  split_ifs at inside
  · exact Or.inr (List.mem_singleton.mp inside)
  · exact Or.inl (List.eq_of_mem_replicate inside)

/-- What was blanked out has no brackets. -/
theorem isBracket_blanks (text : List Char) : ∀ c ∈ blanks text, isBracket c = false := by
  intro c listed
  rcases of_mem_blanks listed with rfl | rfl <;> rfl

/-- A space is one byte. -/
theorem byteLength_spaces (count : Nat) : byteLength (List.replicate count ' ') = count := by
  induction count with
  | zero => rfl
  | succ count ih =>
    rw [List.replicate_succ, byteLength, ih, Nat.add_comm]
    rfl

/-- A text and its blanks have the same number of bytes. -/
theorem byteLength_blanks (text : List Char) : byteLength (blanks text) = byteLength text := by
  induction text with
  | nil => rfl
  | cons c rest ih =>
    rw [blanks_cons, byteLength_append, byteLength]
    have single : byteLength (blanked c) = c.utf8Size := by
      unfold blanked
      split_ifs with newline
      · rw [newline]
        rfl
      · exact byteLength_spaces c.utf8Size
    rw [single, ih]

/-- In code that no comment starts, a character stays. -/
theorem maskFrom_code {c : Char} {rest : List Char} (code : ¬ StartsComment (c :: rest)) :
    maskFrom .code (c :: rest) =
      c :: maskFrom (if isQuote c then .literal c else .code) rest := by
  rw [maskFrom]
  · rintro tail rfl rfl
    exact code ⟨.line, by simp, tail, rfl⟩
  · rintro tail rfl rfl
    exact code ⟨.block, by simp, tail, rfl⟩
  · rintro tail rfl rfl
    exact code ⟨.tag, by simp, tail, rfl⟩

/-- A text that has none of the openings of comments starts no comment. -/
theorem not_startsComment_of_forall {c : Char} {rest : List Char}
    (noLine : ∀ tail, c = '/' → rest = '/' :: tail → False)
    (noBlock : ∀ tail, c = '/' → rest = '*' :: tail → False)
    (noTag : ∀ tail, c = '<' → rest = '!' :: '-' :: '-' :: '-' :: tail → False) :
    ¬ StartsComment (c :: rest) := by
  rintro ⟨kind, listed, tail, whole⟩
  simp only [List.mem_cons, List.not_mem_nil, or_false] at listed
  rcases listed with rfl | rfl | rfl
  · obtain ⟨rfl, rfl⟩ := List.cons.inj whole
    exact noLine tail rfl rfl
  · obtain ⟨rfl, rfl⟩ := List.cons.inj whole
    exact noBlock tail rfl rfl
  · obtain ⟨rfl, rfl⟩ := List.cons.inj whole
    exact noTag tail rfl rfl

/-- A line comment is blanked out up to the newline. -/
theorem maskFrom_line {body after : List Char} (sameLine : '\n' ∉ body)
    (ends : after = [] ∨ after.head? = some '\n') :
    maskFrom .lineComment (body ++ after) = blanks body ++ maskFrom .code after := by
  induction body with
  | nil =>
    rcases ends with rfl | newline
    · rfl
    · obtain ⟨rest, rfl⟩ := List.head?_eq_some_iff.mp newline
      rfl
  | cons c rest ih =>
    rw [List.mem_cons, not_or] at sameLine
    rw [List.cons_append, maskFrom, if_neg (Ne.symm sameLine.1), ih sameLine.2, blanks_cons,
      List.append_assoc]

/-- A quote is no bracket. -/
theorem isBracket_of_isQuote {c : Char} (quotes : isQuote c = true) : isBracket c = false := by
  rcases isQuote_iff.mp quotes with rfl | rfl <;> rfl

/-- A quote is no newline. -/
theorem ne_newline_of_isQuote {c : Char} (quotes : isQuote c = true) : c ≠ '\n' := by
  rintro rfl
  contradiction

/-- The region inside a comment with delimiters. -/
def regionOf : CommentKind → Region
  | .tag => .tagComment
  | _ => .blockComment

/-- Inside a comment with delimiters every character is blanked out up to the closing one. -/
theorem maskFrom_inside {kind : CommentKind} {c : Char} {rest : List Char}
    (kinds : kind = .block ∨ kind = .tag) (elsewhere : ¬ kind.closing <+: c :: rest) :
    maskFrom (regionOf kind) (c :: rest) = blanked c ++ maskFrom (regionOf kind) rest := by
  rcases kinds with rfl | rfl
  · rw [regionOf, maskFrom]
    · rintro tail rfl rfl
      exact elsewhere ⟨tail, rfl⟩
    · decide
  · rw [regionOf, maskFrom]
    rintro tail rfl rfl
    exact elsewhere ⟨tail, rfl⟩

/-- A comment with delimiters is blanked out, and code follows it. -/
theorem maskFrom_enclosed {kind : CommentKind} {body : List Char}
    (kinds : kind = .block ∨ kind = .tag) (ends : ClosesFirst kind.closing body)
    (after : List Char) :
    maskFrom (regionOf kind) (body ++ kind.closing ++ after) =
      blanks (body ++ kind.closing) ++ maskFrom .code after := by
  induction body with
  | nil => rcases kinds with rfl | rfl <;> rfl
  | cons c rest ih =>
    have elsewhere := ends.not_prefix (closing_ne_nil kinds) after
    rw [List.cons_append, List.cons_append, maskFrom_inside kinds elsewhere, ih ends.tail,
      blanks_cons, List.append_assoc]

/-- In a literal, a character that is no newline and no quote is blanked out. -/
theorem maskFrom_inside_literal {quote c : Char} (sameLine : c ≠ '\n') (other : c ≠ quote)
    (rest : List Char) :
    maskFrom (.literal quote) (c :: rest) = blanked c ++ maskFrom (.literal quote) rest := by
  cases rest with
  | nil => simp [maskFrom, other]
  | cons next later => rw [maskFrom, if_neg sameLine, if_neg other]

/-- A newline cuts a literal. -/
theorem maskFrom_cut_literal (quote : Char) (rest : List Char) :
    maskFrom (.literal quote) ('\n' :: rest) = '\n' :: maskFrom .code rest := by
  cases rest with
  | nil => simp [maskFrom, blanked]
  | cons next later => conv_lhs => rw [maskFrom, if_pos rfl]

/-- A quote that is not doubled closes a literal. -/
theorem maskFrom_close_literal {quote : Char} (noNewline : quote ≠ '\n') {rest : List Char}
    (single : rest.head? ≠ some quote) :
    maskFrom (.literal quote) (quote :: rest) = quote :: maskFrom .code rest := by
  cases rest with
  | nil => simp [maskFrom]
  | cons next later =>
    have differs : next ≠ quote := by simpa using single
    conv_lhs => rw [maskFrom, if_neg noNewline, if_pos rfl, if_neg differs]

/-- The inside of a literal on one line is blanked out, its closing quote stays, and code follows
it. -/
theorem maskFrom_literal {quote : Char} {body after : List Char} (quotes : isQuote quote = true)
    (inside : Quoted quote body) (sameLine : '\n' ∉ body) (ends : after.head? ≠ some quote) :
    maskFrom (.literal quote) (body ++ quote :: after) =
      blanks body ++ quote :: maskFrom .code after := by
  have noNewline := ne_newline_of_isQuote quotes
  induction inside with
  | empty => exact maskFrom_close_literal noNewline ends
  | @char c rest other _ ih =>
    rw [List.mem_cons, not_or] at sameLine
    rw [List.cons_append, maskFrom_inside_literal (Ne.symm sameLine.1) other, ih sameLine.2,
      blanks_cons, List.append_assoc]
  | @doubled rest _ ih =>
    simp only [List.mem_cons, not_or] at sameLine
    rw [List.cons_append, List.cons_append, maskFrom, if_neg noNewline, if_pos rfl, if_pos rfl,
      ih sameLine.2.2, blanks_cons, blanks_cons]
    simp only [List.append_assoc]

/-- From its opening on, a line comment is blanked out up to the newline. -/
theorem maskFrom_code_line {body after : List Char} (sameLine : '\n' ∉ body)
    (ends : after = [] ∨ after.head? = some '\n') :
    maskFrom .code (CommentKind.line.opening ++ body ++ after) =
      blanks (CommentKind.line.opening ++ body) ++ maskFrom .code after := by
  rw [blanks_append, List.append_assoc, List.append_assoc, ← maskFrom_line sameLine ends]
  rfl

/-- From its opening on, a comment with delimiters is blanked out. -/
theorem maskFrom_code_enclosed {kind : CommentKind} {body : List Char}
    (kinds : kind = .block ∨ kind = .tag) (ends : ClosesFirst kind.closing body)
    (after : List Char) :
    maskFrom .code (kind.opening ++ body ++ kind.closing ++ after) =
      blanks (kind.opening ++ body ++ kind.closing) ++ maskFrom .code after := by
  have opened (tail : List Char) : maskFrom .code (kind.opening ++ tail) =
      blanks kind.opening ++ maskFrom (regionOf kind) tail := by
    rcases kinds with rfl | rfl <;> rfl
  have split : kind.opening ++ body ++ kind.closing ++ after =
      kind.opening ++ (body ++ kind.closing ++ after) := by simp only [List.append_assoc]
  rw [split, opened, maskFrom_enclosed kinds ends]
  simp only [blanks_append, List.append_assoc]

/-- A literal on one line keeps its quotes, and its inside is blanked out. -/
theorem maskFrom_code_literal {quote : Char} {body after : List Char}
    (quotes : isQuote quote = true) (inside : Quoted quote body) (sameLine : '\n' ∉ body)
    (ends : after.head? ≠ some quote) :
    maskFrom .code (quote :: body ++ [quote] ++ after) =
      (quote :: blanks body ++ [quote]) ++ maskFrom .code after := by
  have opened := maskFrom_code (not_startsComment_of_quote quotes (body ++ quote :: after))
  rw [if_pos quotes, maskFrom_literal quotes inside sameLine ends] at opened
  simpa using opened

/-- What is left of a literal is no bracket. -/
theorem isBracket_masked_literal {quote : Char} (quotes : isQuote quote = true)
    (body : List Char) : ∀ c ∈ quote :: blanks body ++ [quote], isBracket c = false := by
  intro c listed
  simp only [List.cons_append, List.mem_cons, List.mem_append, List.not_mem_nil,
    or_false] at listed
  rcases listed with rfl | blank | rfl
  · exact isBracket_of_isQuote quotes
  · exact isBracket_blanks body c blank
  · exact isBracket_of_isQuote quotes

/-- Masking leaves of a token its brackets and its bytes. -/
theorem bracketBytes_token {spelled after word : List Char} (first : Token spelled after word)
    (oneLine : ∀ quote ∈ spelled.head?, isQuote quote = true → '\n' ∉ spelled) (offset : Nat) :
    bracketBytes offset (Encoding.Utf8.encode (maskFrom .code (spelled ++ after))) =
      word.map (fun c => (offset, c)) ++
        bracketBytes (offset + byteLength spelled)
          (Encoding.Utf8.encode (maskFrom .code after)) := by
  cases first with
  | line sameLine ends =>
    rw [maskFrom_code_line sameLine ends, bracketBytes_cover (isBracket_blanks _),
      byteLength_blanks]
    rfl
  | enclosed kinds ends =>
    rw [maskFrom_code_enclosed kinds ends, bracketBytes_cover (isBracket_blanks _),
      byteLength_blanks]
    rfl
  | @literal quote body _ quotes inside ends =>
    have sameLine : '\n' ∉ quote :: body ++ [quote] := oneLine quote rfl quotes
    have within : '\n' ∉ body := fun listed => sameLine (by simp [listed])
    have length : byteLength (quote :: blanks body ++ [quote]) =
        byteLength (quote :: body ++ [quote]) := by
      simp only [List.cons_append, byteLength, byteLength_append, byteLength_blanks]
    rw [maskFrom_code_literal quotes inside within ends,
      bracketBytes_cover (isBracket_masked_literal quotes body), length]
    rfl
  | @bracket c _ counts =>
    obtain ⟨code, unquoted⟩ := of_isBracket counts after
    have masked := maskFrom_code code
    rw [unquoted] at masked
    rw [List.singleton_append, masked, bracketBytes_cons, if_pos counts]
    rfl
  | @plain c _ noBracket noQuote noComment =>
    have masked := maskFrom_code noComment
    rw [noQuote] at masked
    rw [List.singleton_append, masked, bracketBytes_cons, noBracket]
    rfl

end Masks

end CfmlTidy.Source

namespace CfmlTidy.Script

open CfmlTidy.Source (Nested bracketBytes mask maskFrom)

/-- The brackets of a lexeme with the offset at which they stand. -/
def Placed.brackets (placed : Placed) : List (Nat × Char) :=
  placed.lexeme.word.map fun c => (placed.offset, c)

/-- Whether a lexeme is a literal over a line end. -/
def Lexeme.breaksLine : Lexeme → Bool
  | .literal text => text.contains '\n'
  | _ => false

/-- Whether an event is a comment or literal that is never closed. -/
def Event.isUnterminated : Event → Bool
  | .fault _ (.openComment _) | .fault _ .openLiteral => true
  | _ => false

/-- What is met after a lexeme is met with some stack. -/
theorem balance_tail (stack : List (Char × Nat)) (placed : Placed) (rest : List Placed) :
    ∃ later, balance later rest ⊆ balance stack (placed :: rest) := by
  obtain ⟨offset, lexeme⟩ := placed
  cases lexeme with
  | comment | openComment | openLiteral => exact ⟨stack, List.subset_cons_self _ _⟩
  | literal | plain => exact ⟨stack, List.Subset.refl _⟩
  | bracket c =>
    cases partner : Source.closerOf? c with
    | some closing =>
      simp only [balance, partner]
      exact ⟨_, List.Subset.refl _⟩
    | none =>
      cases stack with
      | nil =>
        simp only [balance, partner]
        exact ⟨[], List.subset_cons_self _ _⟩
      | cons opened outer =>
        simp only [balance, partner]
        refine ⟨outer, ?_⟩
        split_ifs
        · exact List.Subset.refl _
        · exact List.subset_cons_self _ _

/-- A comment or literal that is never closed is reported. -/
theorem unterminated_of_open {stack : List (Char × Nat)} {lexemes : List Placed} {placed : Placed}
    (listed : placed ∈ lexemes) (isOpen : placed.lexeme.isOpen = true) :
    ∃ event ∈ balance stack lexemes, event.isUnterminated = true := by
  induction lexemes generalizing stack with
  | nil => contradiction
  | cons first rest ih =>
    rcases List.mem_cons.mp listed with rfl | later
    · obtain ⟨offset, lexeme⟩ := placed
      cases lexeme with
      | openComment kind => exact ⟨_, List.mem_cons_self, rfl⟩
      | openLiteral => exact ⟨_, List.mem_cons_self, rfl⟩
      | comment | literal | bracket | plain => exact absurd isOpen Bool.false_ne_true
    · obtain ⟨below, within⟩ := balance_tail stack first rest
      obtain ⟨event, met, unterminated⟩ := @ih below later
      exact ⟨event, within met, unterminated⟩

/-- Lexemes of script source and its mask have the same brackets at the same bytes. -/
theorem brackets_scan {offset : Nat} {text : List Char} (closed : AllClosed (scan offset text []))
    (oneLine : ∀ placed ∈ scan offset text [], placed.lexeme.breaksLine = false) :
    (scan offset text []).flatMap Placed.brackets =
      bracketBytes offset (Encoding.Utf8.encode (maskFrom .code text)) := by
  induction offset, text using scan_induction with
  | ended offset => rw [scan]; rfl
  | opened offset text lexeme isOpen lexed =>
    have contrary := closed ⟨offset, lexeme⟩ (by simp [lexed])
    exact absurd (contrary.symm.trans isOpen) Bool.false_ne_true
  | token offset spelled after word first ih =>
    obtain ⟨lexeme, -, leaves, literal, lexed⟩ := scan_token offset first
    rw [lexed] at closed oneLine
    have kept : ∀ quote ∈ spelled.head?, Source.isQuote quote = true → '\n' ∉ spelled := by
      intro quote starts quotes
      have whole := (List.forall_mem_cons.mp oneLine).1
      rw [literal quote starts quotes] at whole
      simpa [Lexeme.breaksLine] using whole
    have later := ih (List.forall_mem_cons.mp closed).2 (List.forall_mem_cons.mp oneLine).2
    rw [lexed, List.flatMap_cons, later, Source.bracketBytes_token first kept, ← leaves]
    rfl

/-- On script source in which every comment and literal is closed and no literal runs over a line
end, structural reading takes brackets exactly at the bytes of the mask that are brackets. It then
succeeds exactly when these bytes are nested. -/
theorem brackets_mask {path : String} {content : List Char} (text : '\x00' ∉ content)
    (script : isScriptSource path content = true)
    (ended : ∀ event ∈ events path content, event.isUnterminated = false)
    (oneLine : ∀ placed ∈ scan 0 content [], placed.lexeme.breaksLine = false) :
    (scan 0 content []).flatMap Placed.brackets =
        bracketBytes 0 (Encoding.Utf8.encode (mask content)) ∧
      ∃ parsed, parse path content = .ok parsed ∧
        (parsed.success = true ↔
          Nested ((bracketBytes 0 (Encoding.Utf8.encode (mask content))).map Prod.snd)) ∧
        (parsed.issues = [] ↔
          Nested ((bracketBytes 0 (Encoding.Utf8.encode (mask content))).map Prod.snd)) := by
  have read : events path content = balance [] (scan 0 content []) := if_pos script
  have closed : AllClosed (scan 0 content []) := by
    intro placed listed
    by_contra isOpen
    rw [Bool.not_eq_false] at isOpen
    obtain ⟨event, met, unterminated⟩ := @unterminated_of_open [] _ _ listed isOpen
    rw [← read] at met
    rw [ended event met] at unterminated
    exact Bool.false_ne_true unterminated
  have same : (scan 0 content []).flatMap Placed.brackets =
      bracketBytes 0 (Encoding.Utf8.encode (mask content)) := brackets_scan closed oneLine
  have word : (bracketBytes 0 (Encoding.Utf8.encode (mask content))).map Prod.snd =
      wordOf (scan 0 content []) := by
    rw [← same, List.map_flatMap]
    simp [wordOf, Placed.brackets, Function.comp_def]
  have quiet : Quiet (events path content) ↔ Nested (wordOf (scan 0 content [])) := by
    rw [read, quiet_balance_iff, List.map_nil, ← Source.nested_iff_closes]
    exact and_iff_right closed
  obtain ⟨parsed, result, sound, clean⟩ := parse_of_text path text
  rw [quiet] at sound clean
  rw [word]
  exact ⟨same, parsed, result, sound, clean⟩

/-- Both readings see past the comment opening in the literal and the quote in the comment. -/
theorem brackets_mask_covered :
    (scan 0 coveredSource []).flatMap Placed.brackets =
        [(1, '('), (15, ')'), (17, '{'), (30, '}')] ∧
      bracketBytes 0 (Encoding.Utf8.encode (mask coveredSource)) =
        [(1, '('), (15, ')'), (17, '{'), (30, '}')] := by
  have agreed := (@brackets_mask "Widget.cfc" coveredSource (by decide +kernel)
    (by decide +kernel) (by decide +kernel) (by decide +kernel)).1
  have taken : (scan 0 coveredSource []).flatMap Placed.brackets =
      [(1, '('), (15, ')'), (17, '{'), (30, '}')] := by decide +kernel
  exact ⟨taken, agreed.symm.trans taken⟩

-- A bracket on the second line of a literal: masking takes it for code.
example : (scan 0 "'\n('".toList []).flatMap Placed.brackets = [] ∧
    bracketBytes 0 (Encoding.Utf8.encode (mask "'\n('".toList)) = [(2, '(')] := by
  decide +kernel

end CfmlTidy.Script
