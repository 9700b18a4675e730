import Mathlib
import CfmlTidy.Json.Writer
import CfmlTidy.Proofs.Json.Field
import CfmlTidy.Proofs.Json.Number

/-!
# Reading what was written

Indented text is read back as the value it was written from. The argument goes through the tokens of
a value: the text of a value is cut into its tokens (`lexes_prettyAt`), and its tokens are put
together to the value under whatever is open around it (`assemble?_tokensOf`). Both go by induction
over `Readable`, which says what has to hold of a value: its objects list their fields in order, it
nests no deeper than the reader goes, its integers fit 64 bits, and its doubles are read back from
their texts.
-/

namespace CfmlTidy.Json

/-- A value that nests at most `levels` arrays and objects and whose parts can be read back. -/
inductive Readable : Nat → Json → Prop where
  /-- Nothing. -/
  | null {levels : Nat} : Readable levels null
  /-- A truth value. -/
  | bool {levels : Nat} (value : Bool) : Readable levels (bool value)
  /-- A whole number of 64 bits, with a sign or without. -/
  | int {levels : Nat} {value : Int} (least : -0x8000000000000000 ≤ value)
    (greatest : value ≤ maxUnsigned) : Readable levels (int value)
  /-- A number that is read back from its text. -/
  | real {levels : Nat} {bits : UInt64}
    (back : ofNumberText? (realText bits).toList = some (real bits)) : Readable levels (real bits)
  /-- A text. -/
  | str {levels : Nat} (value : String) : Readable levels (str value)
  /-- An array, one level above its items. -/
  | arr {levels : Nat} {items : List Json} (each : ∀ item ∈ items, Readable levels item) :
    Readable (levels + 1) (arr items)
  /-- An object with ascending fields, one level above its values. -/
  | obj {levels : Nat} {fields : List (String × Json)} (ascending : Ascending fields)
    (each : ∀ field ∈ fields, Readable levels field.2) : Readable (levels + 1) (obj fields)

section Lexing

variable {text rest : List Char} {tokens others : List Token} {c : Char}

/-- A text that is cut into tokens. -/
def Lexes (text : List Char) (tokens : List Token) : Prop :=
  tokensFrom? .idle text = some tokens

/-- A text that continues neither a number nor a word. -/
def Delimits (rest : List Char) : Prop :=
  ∀ c ∈ rest.head?, isNumberChar c = false ∧ isLetter c = false

/-- Reading takes a step at the first character and goes on with the rest. -/
theorem tokensFrom?_cons {reading next : Reading} {done : List Token}
    (step : step? reading c = some (done, next)) (rest : List Char) :
    tokensFrom? reading (c :: rest) = (tokensFrom? next rest).map (done ++ ·) := by
  rw [tokensFrom?, step]
  simp only [Option.bind_eq_bind, Option.bind_some, Option.map_eq_bind]
  rfl

/-- What was read before a delimiter is finished, and the delimiter is read from the start. -/
theorem tokensFrom?_delimiter {reading : Reading} (finished : finish? reading = some tokens)
    (delimits : Delimits (c :: rest)) :
    tokensFrom? reading (c :: rest) = (tokensFrom? .idle (c :: rest)).map (tokens ++ ·) := by
  obtain ⟨noNumber, noLetter⟩ := delimits c rfl
  have step : step? reading c = (begin? c).map fun start => (tokens ++ start.1, start.2) := by
    cases reading with
    | idle =>
      obtain rfl := Option.some.inj finished
      cases start : begin? c <;> simp [step?, start]
    | inNumber seen =>
      simp only [step?, noNumber, finished]
      cases begin? c <;> rfl
    | inWord seen =>
      simp only [step?, noLetter, finished]
      cases begin? c <;> rfl
    | inText | inEscape | inUnicode | inPair => contradiction
  cases start : begin? c with
  | none =>
    rw [start] at step
    rw [tokensFrom?, step, tokensFrom?, step?, start]
    rfl
  | some found =>
    obtain ⟨done, next⟩ := found
    have idle : step? .idle c = some (done, next) := start
    rw [start] at step
    rw [tokensFrom?_cons step, tokensFrom?_cons idle, Option.map_map]
    simp only [Function.comp_def, List.append_assoc]

/-- Tokens of a text stay the same before a delimiter. -/
theorem tokensFrom?_append {reading : Reading} (read : tokensFrom? reading text = some tokens)
    (delimits : Delimits rest) :
    tokensFrom? reading (text ++ rest) = (tokensFrom? .idle rest).map (tokens ++ ·) := by
  induction text generalizing reading tokens with
  | nil =>
    cases rest with
    | nil =>
      rw [List.append_nil, read]
      simp [tokensFrom?, finish?]
    | cons c rest => exact tokensFrom?_delimiter read delimits
  | cons c text ih =>
    cases step : step? reading c with
    | none =>
      rw [tokensFrom?, step] at read
      contradiction
    | some found =>
      obtain ⟨done, next⟩ := found
      rw [tokensFrom?_cons step, Option.map_eq_some_iff] at read
      obtain ⟨later, read, rfl⟩ := read
      rw [List.cons_append, tokensFrom?_cons step, ih read, Option.map_map]
      simp only [Function.comp_def, List.append_assoc]

/-- Texts that are read one after the other give their tokens one after the other, when the second
delimits the first. -/
theorem Lexes.append (first : Lexes text tokens) (second : Lexes rest others)
    (delimits : Delimits rest) : Lexes (text ++ rest) (tokens ++ others) := by
  unfold Lexes at second ⊢
  rw [tokensFrom?_append first delimits, second]
  rfl

/-- A character that is a token of its own, or none, is read alone. -/
theorem Lexes.cons (second : Lexes rest others) (start : begin? c = some (tokens, .idle)) :
    Lexes (c :: rest) (tokens ++ others) := by
  have idle : step? .idle c = some (tokens, .idle) := start
  unfold Lexes at second ⊢
  rw [tokensFrom?_cons idle, second]
  rfl

/-- The empty text has no tokens. -/
theorem lexes_nil : Lexes [] [] := rfl

/-- Blanks are no tokens. -/
theorem Lexes.blanks (second : Lexes rest others) (blank : ∀ c ∈ text, isSpace c = true) :
    Lexes (text ++ rest) others := by
  induction text with
  | nil => exact second
  | cons c text ih =>
    obtain ⟨space, later⟩ := List.forall_mem_cons.mp blank
    have start : begin? c = some ([], .idle) := by rw [begin?, if_pos space]
    exact (ih later).cons start

/-- A hexadecimal digit is read as its value. -/
theorem hexValue?_hexDigit {value : Nat} (small : value < 16) :
    hexValue? (hexDigit value) = some value := by
  interval_cases value <;> rfl

/-- A control character is read back from the four digits of its code. -/
theorem tokensFrom?_control (seen : List Char) (control : c.toNat < 0x20) (rest : List Char) :
    tokensFrom? (.inText seen)
      (['\\', 'u', '0', '0', hexDigit (c.toNat / 16), hexDigit (c.toNat % 16)] ++ rest) =
      tokensFrom? (.inText (c :: seen)) rest := by
  have high := hexValue?_hexDigit (show c.toNat / 16 < 16 by omega)
  have low := hexValue?_hexDigit (show c.toNat % 16 < 16 by omega)
  have code : c.toNat / 16 * 16 + c.toNat % 16 = c.toNat := by omega
  have apart : ¬ 0xD800 ≤ c.toNat ∧ ¬ 0xDC00 ≤ c.toNat := by omega
  have opened : step? (.inText seen) '\\' = some ([], .inEscape seen) := rfl
  have unicode : step? (.inEscape seen) 'u' = some ([], .inUnicode seen 4 0 none) := rfl
  have first : step? (.inUnicode seen 4 0 none) '0' = some ([], .inUnicode seen 3 0 none) := rfl
  have second : step? (.inUnicode seen 3 0 none) '0' = some ([], .inUnicode seen 2 0 none) := rfl
  have third : step? (.inUnicode seen 2 0 none) (hexDigit (c.toNat / 16)) =
      some ([], .inUnicode seen 1 (c.toNat / 16) none) := by
    simp [step?, high]
  have last : step? (.inUnicode seen 1 (c.toNat / 16) none) (hexDigit (c.toNat % 16)) =
      some ([], .inText (c :: seen)) := by
    simp [step?, low, code, afterUnicode?, apart]
  simp only [List.cons_append, List.nil_append]
  rw [tokensFrom?_cons opened, tokensFrom?_cons unicode, tokensFrom?_cons first,
    tokensFrom?_cons second, tokensFrom?_cons third, tokensFrom?_cons last]
  simp

/-- A character of a text is read back from its quoted form. -/
theorem tokensFrom?_quoteChar (seen : List Char) (c : Char) (rest : List Char) :
    tokensFrom? (.inText seen) (quoteChar c ++ rest) = tokensFrom? (.inText (c :: seen)) rest := by
  have escaped {letter plain : Char} (known : escaped? letter = some plain)
      (plainEscape : (letter == 'u') = false) :
      tokensFrom? (.inText seen) (['\\', letter] ++ rest) =
        tokensFrom? (.inText (plain :: seen)) rest := by
    have step : step? (.inEscape seen) letter = some ([], .inText (plain :: seen)) := by
      simp [step?, plainEscape, known]
    have opened : step? (.inText seen) '\\' = some ([], .inEscape seen) := rfl
    rw [List.cons_append, tokensFrom?_cons opened, List.singleton_append, tokensFrom?_cons step]
    simp
  unfold quoteChar
  split_ifs with quote backslash newline carriage tab backspace feed control
  · rw [quote]; exact escaped rfl rfl
  · rw [backslash]; exact escaped rfl rfl
  · rw [newline]; exact escaped rfl rfl
  · rw [carriage]; exact escaped rfl rfl
  · rw [tab]; exact escaped rfl rfl
  · rw [backspace]; exact escaped rfl rfl
  · rw [feed]; exact escaped rfl rfl
  · exact tokensFrom?_control seen control rest
  · have step : step? (.inText seen) c = some ([], .inText (c :: seen)) := by
      simp [step?, quote, backslash, control]
    rw [List.singleton_append, tokensFrom?_cons step]
    simp

/-- A quoted text is read up to its quote, whatever stands behind it. -/
theorem tokensFrom?_quoted (seen text rest : List Char) :
    tokensFrom? (.inText seen) (text.flatMap quoteChar ++ rest) =
      tokensFrom? (.inText (text.reverse ++ seen)) rest := by
  induction text generalizing seen with
  | nil => rfl
  | cons c text ih =>
    rw [List.flatMap_cons, List.append_assoc, tokensFrom?_quoteChar, ih, List.reverse_cons,
      List.append_assoc, List.singleton_append]

/-- A quoted text is one token. -/
theorem lexes_quoted (text : String) : Lexes (quoted text).toList [.text text] := by
  have whole : (quoted text).toList = '"' :: (text.toList.flatMap quoteChar ++ ['"']) := by
    simp [quoted]
  have opened : step? .idle '"' = some ([], .inText []) := rfl
  have closed : step? (.inText text.toList.reverse) '"' = some ([.text text], .idle) := by
    simp [step?]
  unfold Lexes
  rw [whole, tokensFrom?_cons opened, tokensFrom?_quoted, List.append_nil,
    tokensFrom?_cons closed]
  rfl

/-- The characters of a number or a word are collected. -/
theorem tokensFrom?_inNumber (seen : List Char) (more : ∀ c ∈ text, isNumberChar c = true) :
    tokensFrom? (.inNumber seen) text = finish? (.inNumber (text.reverse ++ seen)) := by
  induction text generalizing seen with
  | nil => rfl
  | cons c text ih =>
    obtain ⟨number, later⟩ := List.forall_mem_cons.mp more
    have step : step? (.inNumber seen) c = some ([], .inNumber (c :: seen)) := by
      simp [step?, number]
    rw [tokensFrom?_cons step, ih _ later]
    simp

/-- A text that is read as a number is one token. -/
theorem lexes_number {value : Json} (read : ofNumberText? text = some value) :
    Lexes text [.atom value] := by
  obtain ⟨first, rest, rfl, starts, more⟩ := chars_of_ofNumberText? read
  have apart (other : Char) (differs : (isDigit other || other == '-') = false) :
      (first == other) = false := by
    apply beq_eq_false_iff_ne.mpr
    rintro rfl
    rw [starts] at differs
    contradiction
  have noSpace : isSpace first = false := by
    simp only [isSpace, apart ' ' rfl, apart '\n' rfl, apart '\t' rfl, apart '\r' rfl,
      Bool.or_self]
  have opened : step? .idle first = some ([], .inNumber [first]) := by
    simp only [step?, begin?, noSpace, apart '"' rfl, starts, Bool.false_eq_true, if_true, if_false]
  unfold Lexes
  rw [tokensFrom?_cons opened, tokensFrom?_inNumber _ more]
  simp [finish?, read]

end Lexing

/-- Lists of tokens with commas between them. -/
def commaTokens : List (List Token) → List Token
  | [] => []
  | [tokens] => tokens
  | tokens :: rest => tokens ++ .comma :: commaTokens rest

mutual

/-- The tokens of a value. -/
def tokensOf : Json → List Token
  | null => [.atom null]
  | bool value => [.atom (bool value)]
  | int value => [.atom (int value)]
  | real bits => [.atom (real bits)]
  | str value => [.text value]
  | arr items => .openArray :: (commaTokens (itemTokens items) ++ [.closeArray])
  | obj fields => .openObject :: (commaTokens (fieldTokens fields) ++ [.closeObject])

/-- The tokens of each item of an array. -/
def itemTokens : List Json → List (List Token)
  | [] => []
  | item :: rest => tokensOf item :: itemTokens rest

/-- The tokens of each field of an object. -/
def fieldTokens : List (String × Json) → List (List Token)
  | [] => []
  | (key, value) :: rest => (.text key :: .colon :: tokensOf value) :: fieldTokens rest

end

/-- The tokens of items are those of each item. -/
theorem itemTokens_eq (items : List Json) : itemTokens items = items.map tokensOf := by
  induction items with
  | nil => rw [itemTokens]; rfl
  | cons item rest ih => rw [itemTokens, ih]; rfl

/-- The tokens of fields are, for each field, its name, a colon and the tokens of its value. -/
theorem fieldTokens_eq (fields : List (String × Json)) :
    fieldTokens fields = fields.map fun field => .text field.1 :: .colon :: tokensOf field.2 := by
  induction fields with
  | nil => rw [fieldTokens]; rfl
  | cons field rest ih => rw [fieldTokens, ih]; rfl

/-- Items are written one by one. -/
theorem prettyItems_eq (level : Nat) (items : List Json) :
    prettyItems level items = items.map (prettyAt level) := by
  induction items with
  | nil => rw [prettyItems]; rfl
  | cons item rest ih => rw [prettyItems, ih]; rfl

/-- Fields are written one by one, as a quoted name and a value. -/
theorem prettyFields_eq (level : Nat) (fields : List (String × Json)) :
    prettyFields level fields =
      fields.map fun field => quoted field.1 ++ ": " ++ prettyAt level field.2 := by
  induction fields with
  | nil => rw [prettyFields]; rfl
  | cons field rest ih => rw [prettyFields, ih]; rfl

section Blocks

variable {α : Type} {textOf : α → String} {tokens : α → List Token} {parts : List α}

/-- A line break is a newline and two blanks for each level. -/
theorem toList_lineBreak (level : Nat) :
    (lineBreak level).toList = '\n' :: List.replicate (2 * level) ' ' := by
  simp [lineBreak]

/-- A line break is no token. -/
theorem Lexes.lineBreak {rest : List Char} {others : List Token} (second : Lexes rest others)
    (level : Nat) : Lexes ((lineBreak level).toList ++ rest) others := by
  apply second.blanks
  rw [toList_lineBreak]
  refine List.forall_mem_cons.mpr ⟨rfl, fun c inside => ?_⟩
  rw [List.eq_of_mem_replicate inside]
  rfl

/-- Texts with commas between them are cut into their tokens with commas between them. -/
theorem lexes_commaJoined (level : Nat)
    (each : ∀ part ∈ parts, Lexes (textOf part).toList (tokens part)) :
    Lexes (commaJoined ("," ++ lineBreak level) (parts.map textOf)).toList
      (commaTokens (parts.map tokens)) := by
  induction parts with
  | nil => exact lexes_nil
  | cons part rest ih =>
    obtain ⟨here, later⟩ := List.forall_mem_cons.mp each
    cases rest with
    | nil => exact here
    | cons next more =>
      have comma : begin? ',' = some ([.comma], .idle) := rfl
      have tail := ((ih later).lineBreak level).cons comma
      have whole := here.append tail (fun c first => by obtain rfl := Option.some.inj first; decide)
      simpa [commaJoined, commaTokens] using whole

/-- The parts of an array or object are cut into their tokens between those of its brackets. -/
theorem lexes_block {opening closing : String} {first last : Char} {opener closer : Token}
    (opens : opening.toList = [first]) (closes : closing.toList = [last])
    (start : begin? first = some ([opener], .idle)) (stop : begin? last = some ([closer], .idle))
    (level : Nat) (each : ∀ part ∈ parts, Lexes (textOf part).toList (tokens part)) :
    Lexes (block opening closing level (parts.map textOf)).toList
      (opener :: (commaTokens (parts.map tokens) ++ [closer])) := by
  have closed : Lexes [last] [closer] := lexes_nil.cons stop
  cases parts with
  | nil =>
    have empty := closed.cons start
    simpa [block, opens, closes, commaTokens] using empty
  | cons part rest =>
    have inner := (lexes_commaJoined (level + 1) each).append (closed.lineBreak level) (by
      intro c delimiter
      rw [toList_lineBreak] at delimiter
      obtain rfl := Option.some.inj delimiter
      decide)
    have whole := (inner.lineBreak (level + 1)).cons start
    simpa [block, opens, closes] using whole

end Blocks

/-- The text of a value is cut into its tokens. -/
theorem lexes_prettyAt {levels : Nat} {value : Json} (readable : Readable levels value)
    (level : Nat) : Lexes (prettyAt level value).toList (tokensOf value) := by
  induction readable generalizing level with
  | null => rw [prettyAt, tokensOf]; rfl
  | bool value => cases value <;> (rw [prettyAt, tokensOf]; rfl)
  | int least greatest =>
    rw [prettyAt, tokensOf]
    exact lexes_number (ofNumberText?_intText least greatest)
  | real back =>
    rw [prettyAt, tokensOf]
    exact lexes_number back
  | str value =>
    rw [prettyAt, tokensOf]
    exact lexes_quoted value
  | arr each ih =>
    rw [prettyAt, tokensOf, prettyItems_eq, itemTokens_eq]
    exact lexes_block rfl rfl rfl rfl level fun item listed => ih item listed (level + 1)
  | obj ascending each ih =>
    rw [prettyAt, tokensOf, prettyFields_eq, fieldTokens_eq]
    refine lexes_block rfl rfl rfl rfl level fun field listed => ?_
    have value := ih field listed (level + 1)
    have blank : begin? ' ' = some ([], .idle) := rfl
    have colon : begin? ':' = some ([.colon], .idle) := rfl
    have tail := (value.cons blank).cons colon
    have whole := (lexes_quoted field.1).append tail
      (fun c first => by obtain rfl := Option.some.inj first; decide)
    simpa using whole

section Assembly

variable {fields : List (String × Json)} {frames : List Frame}

/-- Fields that ascend already are the fields of their object. -/
theorem object_of_ascending (ascending : Ascending fields) : object fields = obj fields := by
  have whole (sorted : List (String × Json)) (apart : Ascending (sorted ++ fields)) :
      fields.foldl (fun sorted field => putField field.1 field.2 sorted) sorted =
        sorted ++ fields := by
    clear ascending
    induction fields generalizing sorted with
    | nil => simp
    | cons field rest ih =>
      have last : putField field.1 field.2 sorted = sorted ++ [field] := by
        apply putField_of_lt
        intro other earlier
        exact (List.pairwise_append.mp apart).2.2 other earlier field List.mem_cons_self
      rw [List.foldl_cons, last, ih (sorted ++ [field]) (by simpa using apart)]
      simp
  rw [object, whole [] ascending]
  rfl

/-- Where a value may come next. -/
inductive AwaitsValue : Expecting → Prop where
  /-- At the start of a value. -/
  | value : AwaitsValue .value
  /-- At the start of an array that may be empty. -/
  | firstItem : AwaitsValue .firstItem

/-- Items with commas between them are put together to their array. -/
theorem assemble?_items {items : List Json} {expecting : Expecting} (awaits : AwaitsValue expecting)
    (filled : items ≠ []) (seen : List Json) (rest : List Token)
    (each : ∀ item ∈ items, ∀ expecting, AwaitsValue expecting → ∀ seen rest,
      assemble? expecting (.array seen :: frames) (tokensOf item ++ rest) =
        assemble? (.after item) (.array seen :: frames) rest) :
    assemble? expecting (.array seen :: frames)
        (commaTokens (items.map tokensOf) ++ .closeArray :: rest) =
      assemble? (.after (arr (seen.reverse ++ items))) frames rest := by
  induction items generalizing expecting seen with
  | nil => contradiction
  | cons item others ih =>
    obtain ⟨here, later⟩ := List.forall_mem_cons.mp each
    cases others with
    | nil =>
      change assemble? expecting (.array seen :: frames) (tokensOf item ++ .closeArray :: rest) = _
      rw [here expecting awaits, assemble?]
      simp
    | cons next more =>
      have step := ih .value (by simp) (item :: seen) later
      change assemble? expecting (.array seen :: frames)
        ((tokensOf item ++ .comma :: commaTokens ((next :: more).map tokensOf)) ++
          .closeArray :: rest) = _
      rw [List.append_assoc, here expecting awaits, List.cons_append, assemble?, step]
      simp

/-- Fields with commas between them are put together to their object. -/
theorem assemble?_fields {expecting : Expecting} (seen : List (String × Json))
    (awaits : expecting = .key seen ∨ expecting = .firstKey ∧ seen = []) (filled : fields ≠ [])
    (rest : List Token)
    (each : ∀ field ∈ fields, ∀ seen rest,
      assemble? .value (.object seen field.1 :: frames) (tokensOf field.2 ++ rest) =
        assemble? (.after field.2) (.object seen field.1 :: frames) rest) :
    assemble? expecting frames
        (commaTokens (fields.map fun field => .text field.1 :: .colon :: tokensOf field.2) ++
          .closeObject :: rest) =
      assemble? (.after (object (seen.reverse ++ fields))) frames rest := by
  induction fields generalizing expecting seen with
  | nil => contradiction
  | cons field others ih =>
    obtain ⟨here, later⟩ := List.forall_mem_cons.mp each
    have opened (more : List Token) :
        assemble? expecting frames (.text field.1 :: .colon :: (tokensOf field.2 ++ more)) =
          assemble? (.after field.2) (.object seen field.1 :: frames) more := by
      rcases awaits with rfl | ⟨rfl, rfl⟩
      · rw [assemble?, assemble?, here]
      · rw [assemble?, assemble?, here]
    cases others with
    | nil =>
      have closed := opened (.closeObject :: rest)
      rw [assemble?] at closed
      simpa [commaTokens] using closed
    | cons next more =>
      have step := ih ((field.1, field.2) :: seen) (Or.inl rfl) (by simp) later
      have comma := opened (.comma :: (commaTokens ((next :: more).map fun field =>
        .text field.1 :: .colon :: tokensOf field.2) ++ .closeObject :: rest))
      rw [assemble?, step] at comma
      simpa [commaTokens] using comma

/-- The tokens of a value are put together to the value, whatever is open around it. -/
theorem assemble?_tokensOf {levels : Nat} {value : Json} (readable : Readable levels value)
    (within : frames.length + levels ≤ maxDepth) {expecting : Expecting}
    (awaits : AwaitsValue expecting) (rest : List Token) :
    assemble? expecting frames (tokensOf value ++ rest) = assemble? (.after value) frames rest := by
  induction readable generalizing frames expecting rest with
  | null | bool | int | real | str => cases awaits <;> simp [tokensOf, assemble?]
  | @arr levels items each ih =>
    have room : frames.length < maxDepth := by omega
    have opened (more : List Token) : assemble? expecting frames (.openArray :: more) =
        assemble? .firstItem (.array [] :: frames) more := by
      cases awaits <;> simp [assemble?, room]
    rw [tokensOf, itemTokens_eq, List.cons_append, opened, List.append_assoc]
    cases items with
    | nil => simp [commaTokens, assemble?]
    | cons item others =>
      refine assemble?_items .firstItem (by simp) [] rest ?_
      intro item listed expecting awaits seen rest
      exact ih item listed (by simp only [List.length_cons]; omega) awaits rest
  | @obj levels fields ascending each ih =>
    have room : frames.length < maxDepth := by omega
    have opened (more : List Token) : assemble? expecting frames (.openObject :: more) =
        assemble? .firstKey frames more := by
      cases awaits <;> simp [assemble?, room]
    rw [tokensOf, fieldTokens_eq, List.cons_append, opened, List.append_assoc]
    cases fields with
    | nil => simp [commaTokens, assemble?]
    | cons field others =>
      rw [← object_of_ascending ascending]
      refine assemble?_fields [] (Or.inr ⟨rfl, rfl⟩) (by simp) rest fun field listed seen rest => ?_
      exact ih field listed (by simp only [List.length_cons]; omega) .value rest

end Assembly

/-- A value that can be read back is read from its indented text. -/
theorem parse?_pretty {value : Json} (readable : Readable maxDepth value) :
    parse? value.pretty = some value := by
  have lexed : tokensFrom? .idle value.pretty.toList = some (tokensOf value) :=
    lexes_prettyAt readable 0
  have within : ([] : List Frame).length + maxDepth ≤ maxDepth := by simp
  have assembled := assemble?_tokensOf readable within .value []
  rw [List.append_nil, assemble?] at assembled
  rw [parse?, lexed]
  exact assembled

end CfmlTidy.Json
