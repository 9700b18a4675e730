import Mathlib
import CfmlTidy.Proofs.Encoding.Ascii
import CfmlTidy.Proofs.Source.Mask

/-!
# Masking on bytes

Masking can go over the bytes of a source without reading characters: it looks for the bytes that
open and close comments and literals and overwrites the bytes between them. What it leaves is UTF-8
again, namely the bytes of the mask. The reason is that everything it looks for is ASCII, and a
character beyond ASCII has no ASCII byte, so every stretch of bytes that is overwritten starts and
ends between two characters. The proof goes stretch by stretch: at the start of code stands a
comment, a quote or another character, and both ways of masking do the same with it.
-/

namespace CfmlTidy.Source

open CfmlTidy (CommentKind)
open CfmlTidy.Encoding
open CfmlTidy.Encoding.Utf8 (IsAscii byteLength_of_isAscii byteOf drop_encode encode encode_append
  encode_cons head?_encode_iff isPrefixOf_encode length_encode not_isPrefixOf_high take_encode)
open CfmlTidy.Script (StartsComment ClosesFirst cutAt? cutAt?_eq_some closesFirst_of_cutAt?
  isQuote_iff)
open CfmlTidy.Text (ReadsAt byteLength byteLength_append)

/-- Bytes overwritten with spaces; newlines stay. -/
def blankBytes (bytes : List UInt8) : List UInt8 :=
  bytes.map fun byte => if byte = byteOf '\n' then byte else byteOf ' '

/-- The number of bytes before the first place where the wanted ones stand. -/
def find? (wanted : List UInt8) : List UInt8 → Option Nat
  | [] => if wanted.isEmpty then some 0 else none
  | byte :: rest =>
    if wanted.isPrefixOf (byte :: rest) then some 0 else (find? wanted rest).map (· + 1)

/-- The number of bytes of the comment that bytes start with, if its opening stands there. Of its
closing, so many bytes belong to it; without a closing it takes all bytes. -/
def commentAt? (opening closing : List Char) (taken : Nat) (bytes : List UInt8) : Option Nat :=
  if (encode opening).isPrefixOf bytes then
    some ((find? (encode closing) (bytes.drop opening.length)).elim bytes.length
      (opening.length + · + taken))
  else none

/-- The number of bytes of the comment that bytes start with. -/
def commentLength? (bytes : List UInt8) : Option Nat :=
  (commentAt? CommentKind.line.opening ['\n'] 0 bytes).or <|
    (commentAt? CommentKind.block.opening CommentKind.block.closing 2 bytes).or <|
      commentAt? CommentKind.tag.opening CommentKind.tag.closing 4 bytes

/-- The number of bytes of a literal before its closing quote, or before the newline or the end that
cuts it short. -/
def literalLength (quote : UInt8) : List UInt8 → Nat
  | [] => 0
  | byte :: rest =>
    if byte = byteOf '\n' then 0
    else if byte = quote then
      match rest with
      | next :: later => if next = quote then literalLength quote later + 2 else 0
      | [] => 0
    else literalLength quote rest + 1

/-- A comment takes at least one byte. -/
theorem commentLength?_pos {byte : UInt8} {rest : List UInt8} {length : Nat}
    (found : commentLength? (byte :: rest) = some length) : 0 < length := by
  have each {opening closing : List Char} {taken : Nat} (filled : 0 < opening.length)
      (here : commentAt? opening closing taken (byte :: rest) = some length) : 0 < length := by
    unfold commentAt? at here
    split_ifs at here
    obtain rfl := Option.some.inj here
    cases find? (encode closing) ((byte :: rest).drop opening.length) with
    | none => simp
    | some before =>
      simp only [Option.elim_some]
      omega
  unfold commentLength? at found
  rcases Option.or_eq_some_iff.mp found with line | ⟨-, other⟩
  · exact each (by decide) line
  · rcases Option.or_eq_some_iff.mp other with block | ⟨-, tag⟩
    · exact each (by decide) block
    · exact each (by decide) tag

/-- Masking as it goes over bytes: comments are overwritten whole, literals between their quotes,
and all other bytes stay. -/
def maskBytes (bytes : List UInt8) : List UInt8 :=
  match bytes with
  | [] => []
  | byte :: rest =>
    match _found : commentLength? (byte :: rest) with
    | some length =>
      blankBytes ((byte :: rest).take length) ++ maskBytes ((byte :: rest).drop length)
    | none =>
      if byte = byteOf '"' ∨ byte = byteOf '\'' then
        let length := literalLength byte rest
        byte :: blankBytes (rest.take length) ++
          (if (rest.drop length).head? = some byte then
            byte :: maskBytes (rest.drop (length + 1))
          else maskBytes (rest.drop length))
      else byte :: maskBytes rest
termination_by bytes.length
decreasing_by
  · have positive := commentLength?_pos _found
    simp only [List.length_drop, List.length_cons]
    omega
  · simp only [List.length_drop, List.length_cons]
    omega
  · simp only [List.length_drop, List.length_cons]
    omega
  · simp

section Words

variable {word : List Char}

/-- Looking for a word of ASCII characters passes over bytes beyond ASCII. -/
theorem find?_high (ascii : IsAscii word) (filled : word ≠ []) {front : List UInt8}
    (high : ∀ byte ∈ front, 0x80 ≤ byte.toNat) (rest : List UInt8) :
    find? (encode word) (front ++ rest) = (find? (encode word) rest).map (· + front.length) := by
  induction front with
  | nil => simp
  | cons byte more ih =>
    obtain ⟨first, others⟩ := List.forall_mem_cons.mp high
    rw [List.cons_append, find?, if_neg (not_isPrefixOf_high ascii filled first _), ih others,
      Option.map_map]
    rfl

/-- Bytes of a text are searched as the text is. -/
theorem find?_encode (ascii : IsAscii word) (filled : word ≠ []) (text : List Char) :
    find? (encode word) (encode text) = (cutAt? word text).map fun cut => byteLength cut.1 := by
  induction text with
  | nil =>
    have wanted : encode word ≠ [] := fun none => filled (Utf8.encode_eq_nil_iff.mp none)
    have nothing : encode [] = [] := rfl
    simp [find?, cutAt?, filled, wanted, nothing]
  | cons c rest ih =>
    obtain ⟨byte, more, bytes⟩ := List.exists_cons_of_ne_nil (@String.utf8EncodeChar_ne_nil c)
    have start := isPrefixOf_encode ascii (c :: rest)
    rw [encode_cons, bytes, List.cons_append] at start
    by_cases here : word.isPrefixOf (c :: rest) = true
    · rw [encode_cons, bytes, List.cons_append, find?, if_pos (start.trans here), cutAt?,
        if_pos here]
      rfl
    · rw [cutAt?, if_neg here, Option.map_map]
      by_cases single : c.toNat < 0x80
      · have size := congrArg List.length (Utf8.encodeChar_of_ascii single)
        rw [String.length_utf8EncodeChar, List.length_singleton] at size
        rw [Utf8.encodeChar_of_ascii single] at bytes
        obtain ⟨rfl, rfl⟩ := List.cons.inj bytes
        rw [List.nil_append] at start
        rw [encode_cons, Utf8.encodeChar_of_ascii single, List.singleton_append, find?,
          if_neg (start ▸ here), ih, Option.map_map]
        congr 1
        funext cut
        simp only [Function.comp, byteLength, size]
        omega
      · rw [encode_cons, find?_high ascii filled (Utf8.high_of_mem_encodeChar single), ih,
          Option.map_map, String.length_utf8EncodeChar]
        congr 1
        funext cut
        simp only [Function.comp, byteLength]
        omega

/-- The bytes of a text, overwritten, are the bytes of its blanks. -/
theorem blankBytes_encode (text : List Char) : blankBytes (encode text) = encode (blanks text) := by
  induction text with
  | nil => rfl
  | cons c rest ih =>
    unfold blankBytes at ih ⊢
    rw [encode_cons, List.map_append, ih, blanks_cons, encode_append]
    congr 1
    unfold blanked
    split_ifs with newline
    · subst newline
      rfl
    · have hidden : ∀ byte ∈ String.utf8EncodeChar c,
          (if byte = byteOf '\n' then byte else byteOf ' ') = byteOf ' ' :=
        fun byte inside => if_neg (ne_newline_of_mem_encodeChar newline byte inside)
      rw [List.map_congr_left hidden, List.map_const', String.length_utf8EncodeChar, encode_spaces]

end Words

section Stretches

variable {opening closing text tail : List Char}

/-- A comment whose opening stands at the start of a text takes the bytes up to its closing. -/
theorem commentAt?_encode (openingAscii : IsAscii opening) (closingAscii : IsAscii closing)
    (filled : closing ≠ []) (taken : Nat) (tail : List Char) :
    commentAt? opening closing taken (encode (opening ++ tail)) =
      some ((cutAt? closing tail).elim (byteLength (opening ++ tail))
        fun cut => byteLength (opening ++ cut.1) + taken) := by
  have here : (encode opening).isPrefixOf (encode (opening ++ tail)) = true := by
    rw [isPrefixOf_encode openingAscii, List.isPrefixOf_iff_prefix]
    exact List.prefix_append opening tail
  have behind : (encode (opening ++ tail)).drop opening.length = encode tail := by
    rw [← byteLength_of_isAscii openingAscii, drop_encode]
  rw [commentAt?, if_pos here, behind, find?_encode closingAscii filled, length_encode]
  cases cutAt? closing tail with
  | none => rfl
  | some cut =>
    simp only [Option.map_some, Option.elim_some, byteLength_append,
      byteLength_of_isAscii openingAscii]

/-- Without its opening there is no comment. -/
theorem commentAt?_eq_none (ascii : IsAscii opening) (elsewhere : ¬ opening <+: text)
    (closing : List Char) (taken : Nat) :
    commentAt? opening closing taken (encode text) = none := by
  rw [commentAt?, isPrefixOf_encode ascii, if_neg]
  rwa [List.isPrefixOf_iff_prefix]

/-- Inside a comment with delimiters that is never closed, everything is blanked out. -/
theorem maskFrom_unclosed {kind : CommentKind} (kinds : kind = .block ∨ kind = .tag)
    (opened : cutAt? kind.closing tail = none) : maskFrom (regionOf kind) tail = blanks tail := by
  induction tail with
  | nil => rcases kinds with rfl | rfl <;> rfl
  | cons c rest ih =>
    have elsewhere : ¬ kind.closing.isPrefixOf (c :: rest) = true := by
      intro here
      rw [cutAt?, if_pos here] at opened
      contradiction
    rw [cutAt?, if_neg elsewhere, Option.map_eq_none_iff] at opened
    rw [List.isPrefixOf_iff_prefix] at elsewhere
    rw [maskFrom_inside kinds elsewhere, ih opened, blanks_cons]

/-- A text is cut at a character unless it has none of it. -/
theorem not_mem_of_cutAt?_eq_none {c : Char} (opened : cutAt? [c] tail = none) : c ∉ tail := by
  induction tail with
  | nil => simp
  | cons first rest ih =>
    have elsewhere : ¬ List.isPrefixOf [c] (first :: rest) = true := by
      intro here
      rw [cutAt?, if_pos here] at opened
      contradiction
    rw [cutAt?, if_neg elsewhere, Option.map_eq_none_iff] at opened
    have differs : c ≠ first := by simpa [List.isPrefixOf] using elsewhere
    exact List.not_mem_cons_of_ne_of_not_mem differs (ih opened)

/-- What both ways of masking do with a stretch at the start of code: as many bytes as it has are
taken for a comment, and its blanks stand for it. -/
structure Hidden (front back : List Char) : Prop where
  /-- The bytes of the comment are those of the stretch. -/
  length : commentLength? (encode (front ++ back)) = some (byteLength front)
  /-- The stretch is blanked out, and code follows it. -/
  masked : maskFrom .code (front ++ back) = blanks front ++ maskFrom .code back

/-- Comments open with ASCII characters. -/
theorem isAscii_opening (kind : CommentKind) : IsAscii kind.opening := by
  cases kind <;> simp [IsAscii, CommentKind.opening]

/-- Comments close with ASCII characters. -/
theorem isAscii_closing (kind : CommentKind) : IsAscii kind.closing := by
  cases kind <;> simp [IsAscii, CommentKind.closing]

/-- A line comment is hidden up to the newline. -/
theorem exists_hidden_line (tail : List Char) :
    ∃ front back, CommentKind.line.opening ++ tail = front ++ back ∧ back.length ≤ tail.length ∧
      Hidden front back := by
  have found : commentLength? (encode (CommentKind.line.opening ++ tail)) =
      some ((cutAt? ['\n'] tail).elim (byteLength (CommentKind.line.opening ++ tail))
        fun cut => byteLength (CommentKind.line.opening ++ cut.1) + 0) := by
    rw [commentLength?, commentAt?_encode (isAscii_opening .line) (by simp [IsAscii]) (by simp),
      Option.some_or]
  have opened (tail : List Char) : maskFrom .code (CommentKind.line.opening ++ tail) =
      blanks CommentKind.line.opening ++ maskFrom .lineComment tail := rfl
  cases cut : cutAt? ['\n'] tail with
  | none =>
    refine ⟨CommentKind.line.opening ++ tail, [], by simp, by simp, ?_, ?_⟩
    · rw [List.append_nil, found, cut]
      rfl
    · have masked := maskFrom_line (not_mem_of_cutAt?_eq_none cut) (Or.inl rfl)
      rw [List.append_nil] at masked
      rw [List.append_nil, opened, masked, blanks_append, List.append_assoc]
  | some parts =>
    obtain ⟨body, after⟩ := parts
    have whole := cutAt?_eq_some cut
    have sameLine : '\n' ∉ body := by
      have first := closesFirst_of_cutAt? (by simp) cut
      rwa [ClosesFirst, List.dropLast_singleton, List.append_nil, List.singleton_infix_iff]
        at first
    rw [List.append_assoc, List.singleton_append] at whole
    have split : CommentKind.line.opening ++ tail =
        (CommentKind.line.opening ++ body) ++ '\n' :: after := by
      rw [whole, List.append_assoc]
    refine ⟨CommentKind.line.opening ++ body, '\n' :: after, split, ?_, ?_, ?_⟩
    · rw [whole, List.length_append]
      omega
    · rw [← split, found, cut]
      rfl
    · rw [← split, whole, opened, maskFrom_line sameLine (Or.inr rfl), blanks_append,
        List.append_assoc]

/-- The comment of a kind with delimiters is looked for where its opening stands. -/
theorem commentLength?_enclosed {kind : CommentKind} (kinds : kind = .block ∨ kind = .tag)
    (tail : List Char) :
    commentLength? (encode (kind.opening ++ tail)) =
      some ((cutAt? kind.closing tail).elim (byteLength (kind.opening ++ tail))
        fun cut => byteLength (kind.opening ++ cut.1) + kind.closing.length) := by
  have found := commentAt?_encode (isAscii_opening kind) (isAscii_closing kind)
    (Script.closing_ne_nil kinds) kind.closing.length tail
  have noLine : ¬ CommentKind.line.opening <+: kind.opening ++ tail := by
    rcases kinds with rfl | rfl <;> simp [CommentKind.opening]
  rw [commentLength?, commentAt?_eq_none (isAscii_opening .line) noLine, Option.none_or]
  rcases kinds with rfl | rfl
  · exact congrArg (Option.or · _) found
  · have noBlock : ¬ CommentKind.block.opening <+: CommentKind.tag.opening ++ tail := by
      simp [CommentKind.opening]
    rw [commentAt?_eq_none (isAscii_opening .block) noBlock, Option.none_or]
    exact found

/-- A comment with delimiters is hidden with them, or up to the end when it is never closed. -/
theorem exists_hidden_enclosed {kind : CommentKind} (kinds : kind = .block ∨ kind = .tag)
    (tail : List Char) :
    ∃ front back, kind.opening ++ tail = front ++ back ∧ back.length ≤ tail.length ∧
      Hidden front back := by
  have opened (tail : List Char) : maskFrom .code (kind.opening ++ tail) =
      blanks kind.opening ++ maskFrom (regionOf kind) tail := by
    rcases kinds with rfl | rfl <;> rfl
  have found := commentLength?_enclosed kinds tail
  cases cut : cutAt? kind.closing tail with
  | none =>
    refine ⟨kind.opening ++ tail, [], by simp, by simp, ?_, ?_⟩
    · rw [List.append_nil, found, cut]
      rfl
    · rw [List.append_nil, opened, maskFrom_unclosed kinds cut, blanks_append]
      exact (List.append_nil _).symm
  | some parts =>
    obtain ⟨body, after⟩ := parts
    have whole := cutAt?_eq_some cut
    have filled := Script.closing_ne_nil kinds
    have split : kind.opening ++ tail = (kind.opening ++ body ++ kind.closing) ++ after := by
      rw [whole]
      simp only [List.append_assoc]
    refine ⟨kind.opening ++ body ++ kind.closing, after, split, ?_, ?_, ?_⟩
    · rw [whole, List.length_append]
      omega
    · rw [← split, found, cut, Option.elim_some, byteLength_append (kind.opening ++ body),
        byteLength_of_isAscii (isAscii_closing kind)]
    · rw [← split, whole, opened, maskFrom_enclosed kinds (closesFirst_of_cutAt? filled cut)]
      simp only [blanks_append, List.append_assoc]

/-- A comment at the start of code is hidden. -/
theorem exists_hidden (starts : StartsComment text) :
    ∃ front back, text = front ++ back ∧ back.length < text.length ∧ Hidden front back := by
  obtain ⟨kind, listed, tail, rfl⟩ := starts
  have filled := Script.opening_length_pos kind
  have within : ∃ front back, kind.opening ++ tail = front ++ back ∧ back.length ≤ tail.length ∧
      Hidden front back := by
    simp only [List.mem_cons, List.not_mem_nil, or_false] at listed
    rcases listed with rfl | enclosed
    · exact exists_hidden_line tail
    · exact exists_hidden_enclosed enclosed tail
  obtain ⟨front, back, split, short, hidden⟩ := within
  refine ⟨front, back, split, ?_, hidden⟩
  rw [List.length_append]
  omega

/-- Where no comment starts in a text, none is found in its bytes. -/
theorem commentLength?_eq_none (code : ¬ StartsComment text) :
    commentLength? (encode text) = none := by
  have absent (kind : CommentKind) (listed : kind ∈ [CommentKind.line, .block, .tag])
      (closing : List Char) (taken : Nat) :
      commentAt? kind.opening closing taken (encode text) = none :=
    commentAt?_eq_none (isAscii_opening kind) (fun starts => code ⟨kind, listed, starts⟩) closing
      taken
  rw [commentLength?, absent .line (by simp), absent .block (by simp), absent .tag (by simp)]
  rfl

/-- No comment starts with a byte beyond ASCII. -/
theorem commentLength?_high {byte : UInt8} (high : 0x80 ≤ byte.toNat) (rest : List UInt8) :
    commentLength? (byte :: rest) = none := by
  have absent (kind : CommentKind) (closing : List Char) (taken : Nat) :
      commentAt? kind.opening closing taken (byte :: rest) = none := by
    have filled := List.ne_nil_of_length_pos (Script.opening_length_pos kind)
    exact if_neg (not_isPrefixOf_high (isAscii_opening kind) filled high rest)
  rw [commentLength?, absent, absent, absent]
  rfl

end Stretches

section Literals

variable {quote : Char} {mark : UInt8}

/-- A quote is an ASCII character. -/
theorem toNat_of_isQuote (quotes : isQuote quote = true) : quote.toNat < 0x80 := by
  rcases isQuote_iff.mp quotes with rfl | rfl <;> decide

/-- The byte of a quote is not that of a newline. -/
theorem byteOf_ne_newline (quotes : isQuote quote = true) : byteOf quote ≠ byteOf '\n' := by
  rw [ne_eq, Utf8.byteOf_inj (toNat_of_isQuote quotes) (by decide)]
  exact ne_newline_of_isQuote quotes

/-- A newline ends a literal. -/
theorem literalLength_newline (rest : List UInt8) :
    literalLength mark (byteOf '\n' :: rest) = 0 := by
  rw [literalLength.eq_def]
  exact if_pos rfl

/-- A quote that is not doubled ends a literal. -/
theorem literalLength_closing (other : mark ≠ byteOf '\n') {rest : List UInt8}
    (single : rest.head? ≠ some mark) : literalLength mark (mark :: rest) = 0 := by
  rw [literalLength.eq_def]
  cases rest with
  | nil => simp [other]
  | cons next later =>
    have differs : next ≠ mark := by simpa using single
    simp [other, differs]

/-- A doubled quote takes two bytes of a literal. -/
theorem literalLength_doubled (other : mark ≠ byteOf '\n') (rest : List UInt8) :
    literalLength mark (mark :: mark :: rest) = literalLength mark rest + 2 := by
  rw [literalLength.eq_def]
  simp [other]

/-- Bytes that are no newline and no quote are inside a literal. -/
theorem literalLength_append {front : List UInt8}
    (inside : ∀ byte ∈ front, byte ≠ byteOf '\n' ∧ byte ≠ mark) (rest : List UInt8) :
    literalLength mark (front ++ rest) = literalLength mark rest + front.length := by
  induction front with
  | nil => rfl
  | cons byte more ih =>
    obtain ⟨⟨sameLine, other⟩, others⟩ := List.forall_mem_cons.mp inside
    rw [List.cons_append, literalLength.eq_def]
    simp only [if_neg sameLine, if_neg other, ih others, List.length_cons, Nat.add_assoc]

/-- What both ways of masking do with the inside of a literal: the same stretch is blanked out, and
then the closing quote stays if it stands there. -/
structure Cut (quote : Char) (body after : List Char) : Prop where
  /-- The bytes of the literal are those of the stretch. -/
  length : literalLength (byteOf quote) (encode (body ++ after)) = byteLength body
  /-- The stretch is blanked out, and code follows the quote. -/
  masked : maskFrom (.literal quote) (body ++ after) = blanks body ++
    if after.head? = some quote then quote :: maskFrom .code after.tail else maskFrom .code after

/-- A newline cuts a literal. -/
theorem Cut.newline (quotes : isQuote quote = true) (rest : List Char) :
    Cut quote [] ('\n' :: rest) := by
  have noNewline : '\n' ≠ quote := (ne_newline_of_isQuote quotes).symm
  constructor
  · rw [List.nil_append, encode_cons]
    exact literalLength_newline _
  · rw [if_neg (by simpa using noNewline)]
    exact maskFrom_cut_literal quote rest

/-- A quote that is not doubled closes a literal. -/
theorem Cut.closing (quotes : isQuote quote = true) {rest : List Char}
    (single : rest.head? ≠ some quote) : Cut quote [] (quote :: rest) := by
  have ascii := toNat_of_isQuote quotes
  have noNewline := ne_newline_of_isQuote quotes
  constructor
  · rw [List.nil_append, encode_cons, Utf8.encodeChar_of_ascii ascii]
    exact literalLength_closing (byteOf_ne_newline quotes)
      (fun first => single ((head?_encode_iff ascii rest).mp first))
  · rw [if_pos (by rfl)]
    exact maskFrom_close_literal noNewline single

/-- A character that is no newline and no quote is inside a literal. -/
theorem Cut.inside (quotes : isQuote quote = true) {c : Char} {body after : List Char}
    (sameLine : c ≠ '\n') (other : c ≠ quote) (cut : Cut quote body after) :
    Cut quote (c :: body) after := by
  constructor
  · have within : ∀ byte ∈ String.utf8EncodeChar c,
        byte ≠ byteOf '\n' ∧ byte ≠ byteOf quote := by
      intro byte inside
      refine ⟨ne_newline_of_mem_encodeChar sameLine byte inside, ?_⟩
      rintro rfl
      exact other (Utf8.eq_of_mem_encodeChar (toNat_of_isQuote quotes) inside)
    rw [List.cons_append, encode_cons, literalLength_append within, cut.length,
      String.length_utf8EncodeChar, byteLength, Nat.add_comm]
  · rw [List.cons_append, maskFrom_inside_literal sameLine other, cut.masked, blanks_cons,
      List.append_assoc]

/-- A doubled quote is inside a literal. -/
theorem Cut.doubled (quotes : isQuote quote = true) {body after : List Char}
    (cut : Cut quote body after) : Cut quote (quote :: quote :: body) after := by
  have ascii := toNat_of_isQuote quotes
  have noNewline := ne_newline_of_isQuote quotes
  have size : byteLength [quote] = 1 := byteLength_of_isAscii (by simpa [IsAscii] using ascii)
  constructor
  · simp only [List.cons_append, encode_cons, Utf8.encodeChar_of_ascii ascii, List.nil_append]
    rw [literalLength_doubled (byteOf_ne_newline quotes), cut.length]
    simp only [byteLength] at size ⊢
    omega
  · rw [List.cons_append, List.cons_append, maskFrom, if_neg noNewline, if_pos rfl, if_pos rfl,
      cut.masked, blanks_cons, blanks_cons]
    simp only [List.append_assoc]

/-- A literal is cut at its closing quote, at a newline, or at the end. -/
theorem exists_cut (quotes : isQuote quote = true) (tail : List Char) :
    ∃ body after, tail = body ++ after ∧ Cut quote body after := by
  have ended : Cut quote [] [] := ⟨rfl, by simp [maskFrom, blanks]⟩
  induction tail using List.twoStepInduction with
  | nil => exact ⟨[], [], rfl, ended⟩
  | singleton c =>
    by_cases newline : c = '\n'
    · exact ⟨[], [c], rfl, newline ▸ .newline quotes []⟩
    · by_cases closes : c = quote
      · exact ⟨[], [c], rfl, closes ▸ .closing quotes (by simp)⟩
      · exact ⟨[c], [], rfl, ended.inside quotes newline closes⟩
  | cons_cons c next rest ih ih' =>
    by_cases newline : c = '\n'
    · exact ⟨[], c :: next :: rest, rfl, newline ▸ .newline quotes (next :: rest)⟩
    · by_cases quoted : c = quote
      · subst quoted
        by_cases twice : next = c
        · subst twice
          obtain ⟨body, after, rfl, cut⟩ := ih
          exact ⟨next :: next :: body, after, rfl, cut.doubled quotes⟩
        · exact ⟨[], c :: next :: rest, rfl, .closing quotes (by simpa using twice)⟩
      · obtain ⟨body, after, split, cut⟩ := ih' next
        exact ⟨c :: body, after, by rw [split, List.cons_append],
          cut.inside quotes newline quoted⟩

end Literals

section Steps

variable {byte : UInt8} {rest : List UInt8} {length : Nat}

/-- The byte of a quote is a byte of no other character. -/
theorem byteOf_eq_quote_iff {c : Char} (ascii : c.toNat < 0x80) :
    byteOf c = byteOf '"' ∨ byteOf c = byteOf '\'' ↔ isQuote c = true := by
  rw [Utf8.byteOf_inj ascii (by decide), Utf8.byteOf_inj ascii (by decide), isQuote_iff]

/-- A comment is overwritten. -/
theorem maskBytes_comment (found : commentLength? (byte :: rest) = some length) :
    maskBytes (byte :: rest) =
      blankBytes ((byte :: rest).take length) ++ maskBytes ((byte :: rest).drop length) := by
  rw [maskBytes]
  split
  · next other same =>
    rw [found] at same
    obtain rfl := Option.some.inj same
    rfl
  · next none =>
    rw [found] at none
    contradiction

/-- The inside of a literal is overwritten. -/
theorem maskBytes_quote (code : commentLength? (byte :: rest) = none)
    (quotes : byte = byteOf '"' ∨ byte = byteOf '\'') (cut : literalLength byte rest = length) :
    maskBytes (byte :: rest) = byte :: blankBytes (rest.take length) ++
      if (rest.drop length).head? = some byte then byte :: maskBytes (rest.drop (length + 1))
      else maskBytes (rest.drop length) := by
  subst cut
  rw [maskBytes]
  split
  · next other found =>
    rw [code] at found
    contradiction
  · rw [if_pos quotes]

/-- Any other byte stays. -/
theorem maskBytes_other (code : commentLength? (byte :: rest) = none)
    (plain : ¬ (byte = byteOf '"' ∨ byte = byteOf '\'')) :
    maskBytes (byte :: rest) = byte :: maskBytes rest := by
  rw [maskBytes]
  split
  · next other found =>
    rw [code] at found
    contradiction
  · rw [if_neg plain]

/-- Bytes beyond ASCII stay. -/
theorem maskBytes_high {front : List UInt8} (high : ∀ byte ∈ front, 0x80 ≤ byte.toNat)
    (rest : List UInt8) : maskBytes (front ++ rest) = front ++ maskBytes rest := by
  induction front with
  | nil => rfl
  | cons byte more ih =>
    obtain ⟨first, others⟩ := List.forall_mem_cons.mp high
    have plain : ¬ (byte = byteOf '"' ∨ byte = byteOf '\'') := by
      rintro (rfl | rfl)
      · exact absurd first (by decide)
      · exact absurd first (by decide)
    rw [List.cons_append, maskBytes_other (commentLength?_high first _) plain, ih others,
      List.cons_append]

/-- A literal in the bytes of a text is overwritten where it is cut. -/
theorem maskBytes_literal {quote : Char} {body after : List Char} (quotes : isQuote quote = true)
    (cut : Cut quote body after) :
    maskBytes (encode (quote :: (body ++ after))) = byteOf quote :: encode (blanks body) ++
      if after.head? = some quote then byteOf quote :: maskBytes (encode after.tail)
      else maskBytes (encode after) := by
  have ascii := toNat_of_isQuote quotes
  have code := commentLength?_eq_none
    (Script.not_startsComment_of_quote quotes (body ++ after))
  rw [encode_cons, Utf8.encodeChar_of_ascii ascii, List.singleton_append] at code ⊢
  rw [maskBytes_quote code ((byteOf_eq_quote_iff ascii).mpr quotes) cut.length, take_encode,
    blankBytes_encode, ← List.drop_drop, drop_encode]
  congr 1
  by_cases closes : after.head? = some quote
  · obtain ⟨rest, rfl⟩ := List.head?_eq_some_iff.mp closes
    rw [if_pos ((head?_encode_iff ascii _).mpr closes), if_pos closes, encode_cons,
      Utf8.encodeChar_of_ascii ascii]
    rfl
  · rw [if_neg (fun first => closes ((head?_encode_iff ascii _).mp first)), if_neg closes]

/-- Masking the bytes of a text leaves the bytes of its mask. The induction is on what is left to
mask: a stretch at the start of code has a character at least. -/
theorem maskBytes_encode (text : List Char) : maskBytes (encode text) = encode (mask text) := by
  unfold mask
  induction size : text.length using Nat.strong_induction_on generalizing text with
  | _ size ih =>
    subst size
    rcases text with _ | ⟨c, rest⟩
    · rw [maskFrom, encode, List.flatMap_nil, maskBytes]
    · by_cases starts : StartsComment (c :: rest)
      · obtain ⟨front, back, whole, short, hidden⟩ := exists_hidden starts
        obtain ⟨byte, more, bytes⟩ : ∃ byte more, encode (c :: rest) = byte :: more :=
          List.exists_cons_of_ne_nil (by simp [Utf8.encode_eq_nil_iff])
        have found := hidden.length
        rw [← whole, bytes] at found
        rw [bytes, maskBytes_comment found, ← bytes, whole, take_encode, drop_encode,
          blankBytes_encode, hidden.masked, encode_append, ih back.length short back rfl]
      · rw [maskFrom_code starts]
        by_cases quotes : isQuote c = true
        · obtain ⟨body, after, rfl, cut⟩ := exists_cut quotes rest
          have ascii := toNat_of_isQuote quotes
          rw [maskBytes_literal quotes cut, if_pos quotes, cut.masked, encode_cons, encode_append,
            Utf8.encodeChar_of_ascii ascii]
          by_cases closes : after.head? = some c
          · obtain ⟨back, rfl⟩ := List.head?_eq_some_iff.mp closes
            have later := ih back.length (by simp; omega) back rfl
            rw [if_pos closes, if_pos closes, List.tail_cons, later, encode_cons,
              Utf8.encodeChar_of_ascii ascii]
            rfl
          · have later := ih after.length (by simp) after rfl
            rw [if_neg closes, if_neg closes, later]
            rfl
        · have later := ih rest.length (by simp) rest rfl
          rw [if_neg quotes, encode_cons, encode_cons, ← later]
          by_cases ascii : c.toNat < 0x80
          · have code := commentLength?_eq_none starts
            rw [encode_cons, Utf8.encodeChar_of_ascii ascii, List.singleton_append] at code
            rw [Utf8.encodeChar_of_ascii ascii, List.singleton_append,
              maskBytes_other code (by rwa [byteOf_eq_quote_iff ascii]), List.singleton_append]
          · exact maskBytes_high (Utf8.high_of_mem_encodeChar ascii) _

end Steps

/-- Masking keeps positions. The bytes that masking a source leaves are UTF-8: read, they are the
mask, and the mask is written as these bytes. They are as many as those of the source, have newlines
at the same offsets, and at every other offset the byte of the source or a space. So a character of
the mask that is no space is read at the same offset of the source. -/
theorem mask_keeps_positions (text : List Char) :
    Utf8.decode (maskBytes (encode text)) = mask text ∧
      encode (mask text) = maskBytes (encode text) ∧
      (maskBytes (encode text)).length = (encode text).length ∧
      (∀ offset : Nat, (maskBytes (encode text))[offset]? = some (byteOf '\n') ↔
        (encode text)[offset]? = some (byteOf '\n')) ∧
      (∀ (offset : Nat) (byte : UInt8), (maskBytes (encode text))[offset]? = some byte →
        byte = byteOf ' ' ∨ (encode text)[offset]? = some byte) ∧
      ∀ (offset : Nat) (c : Char) (rest : List Char), ReadsAt (mask text) offset (c :: rest) →
        c ≠ ' ' → ∃ later, ReadsAt text offset (c :: later) := by
  have covers : Covers (mask text) text := covers_maskFrom .code text
  have bytes := covers.bytes
  rw [maskBytes_encode]
  refine ⟨Utf8.decode_encode _, rfl, bytes.length_eq, ?_, ?_, ?_⟩
  · exact fun offset => (covers_iff_at bytes offset).1
  · exact fun offset => (covers_iff_at bytes offset).2
  · exact fun offset c rest reads noSpace => covers.readsAt reads noSpace

/-- A literal cut short by a newline, a comment over a line end and a comment that is never closed,
with characters of two bytes in each of them and one in code. -/
def accented : List Char :=
  ['\'', 'ä', '\'', '\'', 'ö', '\n', '/', '*', 'ü', '\n', '*', '/', 'é', '<', '!', '-', '-', '-', 'ß']

/-- What masking leaves of the accented text before the accent in code. -/
def hiddenAccents : List Char :=
  '\'' :: List.replicate 6 ' ' ++ '\n' :: List.replicate 4 ' ' ++ '\n' :: List.replicate 2 ' '

/-- The accent in code is shown at its byte, and those in the literal and the comments are hidden
behind two spaces each. -/
theorem mask_keeps_positions_accented :
    mask accented = hiddenAccents ++ 'é' :: List.replicate 7 ' ' ∧
      ∃ later, ReadsAt accented 15 ('é' :: later) := by
  obtain ⟨-, -, -, -, -, kept⟩ := mask_keeps_positions accented
  have masked : mask accented = hiddenAccents ++ 'é' :: List.replicate 7 ' ' := by decide +kernel
  exact ⟨masked, kept 15 'é' _ ⟨hiddenAccents, masked, by decide +kernel⟩ (by decide)⟩

end CfmlTidy.Source
