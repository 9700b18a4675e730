import CfmlTidy.Parse.Lexeme
import CfmlTidy.Source.Bracket
import CfmlTidy.Text.Letter

/-!
# Structural reading

Balances the brackets of script source and collects comments. Component files and other script
files are script as a whole unless they start with markup; every other file is markup, of which
only the script blocks are balanced.
-/

namespace CfmlTidy.Script

/-- What can be wrong with the structure of a source. -/
inductive Fault where
  /-- The opening tag of a script block has no end. -/
  | openTag
  /-- A script block has no closing tag. -/
  | openBlock
  /-- A comment is never closed. -/
  | openComment (kind : CommentKind)
  /-- A literal is never closed. -/
  | openLiteral
  /-- A closing bracket without an opening one. -/
  | unexpected (closing : Char)
  /-- A closing bracket of another kind than the opening one, with the offset of that one. -/
  | mismatched (closing opening : Char) (openedAt : Nat)
  /-- An opening bracket that is never closed. -/
  | unclosed (opening : Char)
deriving Repr, DecidableEq

/-- The wording of a fault in a text. -/
def Fault.message (content : List Char) : Fault → String
  | openTag => "Unclosed <cfscript> tag"
  | openBlock => "Missing closing </cfscript> tag"
  | openComment kind => "Unterminated comment starting with '" ++ String.ofList kind.opening ++ "'"
  | openLiteral => "Unterminated string literal"
  | unexpected closing => "Unexpected '" ++ String.singleton closing ++ "'"
  | mismatched closing opening openedAt =>
    "Mismatched '" ++ String.singleton closing ++ "' (expected '" ++
      String.singleton ((Source.closerOf? opening).getD ']') ++ "' to close '" ++
      String.singleton opening ++ "' from line " ++
      toString (Text.positionAt content openedAt).line ++ ")"
  | unclosed opening => "Unclosed '" ++ String.singleton opening ++ "'"

/-- What is met while reading a source: a comment with its extent, or a fault. -/
inductive Event where
  /-- A comment between two offsets. -/
  | comment (kind : CommentKind) (body : List Char) (start stop : Nat)
  /-- A fault at an offset. -/
  | fault (offset : Nat) (fault : Fault)
deriving Repr, DecidableEq

/-- The comment event of a comment that starts at an offset. -/
def commentEvent (offset : Nat) (kind : CommentKind) (body : List Char) : Event :=
  .comment kind body offset
    (offset + Text.byteLength (kind.opening ++ body ++ kind.closing))

/-- Balance brackets, innermost open bracket first. Brackets left open are reported at the end,
outermost first. -/
def balance : List (Char × Nat) → List Placed → List Event
  | stack, [] => stack.reverse.map fun opened => .fault opened.2 (.unclosed opened.1)
  | stack, ⟨offset, .comment kind body⟩ :: rest =>
    commentEvent offset kind body :: balance stack rest
  | stack, ⟨offset, .openComment kind⟩ :: rest =>
    .fault offset (.openComment kind) :: balance stack rest
  | stack, ⟨offset, .openLiteral⟩ :: rest => .fault offset .openLiteral :: balance stack rest
  | stack, ⟨_, .literal _⟩ :: rest => balance stack rest
  | stack, ⟨_, .plain _⟩ :: rest => balance stack rest
  | stack, ⟨offset, .bracket c⟩ :: rest =>
    match Source.closerOf? c, stack with
    | some _, _ => balance ((c, offset) :: stack) rest
    | none, [] => .fault offset (.unexpected c) :: balance [] rest
    | none, (opening, openedAt) :: outer =>
      if Source.closerOf? opening = some c then balance outer rest
      else .fault offset (.mismatched c opening openedAt) :: balance outer rest

/-- Read a script block that starts at an offset and is followed by `beyond`. -/
def readBlock (offset : Nat) (inside beyond : List Char) : List Event :=
  balance [] (scan offset inside beyond)

/-- Whether a text starts with a word in lower case, whatever the case of the text. -/
def startsWith : (word text : List Char) → Bool
  | [], _ => true
  | _ :: _, [] => false
  | letter :: word, c :: text => letter == Text.lower c && startsWith word text

/-- Cut a text before the first place that starts with a word in lower case, whatever the case of
the text there. -/
def cutBefore? (word : List Char) : List Char → Option (List Char × List Char)
  | [] => none
  | c :: rest =>
    if startsWith word (c :: rest) then some ([], c :: rest)
    else (cutBefore? word rest).map fun cut => (c :: cut.1, cut.2)

/-- The parts of a text cut before a word make up the text. -/
theorem cutBefore?_eq_some {word text before after : List Char}
    (found : cutBefore? word text = some (before, after)) : text = before ++ after := by
  induction text generalizing before with
  | nil => simp [cutBefore?] at found
  | cons c rest step =>
    by_cases here : startsWith word (c :: rest) = true
    · simp only [cutBefore?, here, if_true] at found
      obtain ⟨rfl, rfl⟩ := Prod.mk.inj (Option.some.inj found)
      simp
    · cases later : cutBefore? word rest with
      | none => simp [cutBefore?, here, later] at found
      | some cut =>
        simp only [cutBefore?, here, later, Option.map_some] at found
        obtain ⟨rfl, rfl⟩ := Prod.mk.inj (Option.some.inj found)
        simp [step later]

/-- The start of the tag that opens a script block. -/
def blockOpening : List Char := "<cfscript".toList

/-- The start of the tag that closes a script block. -/
def blockClosing : List Char := "</cfscript".toList

/-- The kind of the markup comment that a text starts with. -/
def markupComment? : List Char → Option CommentKind
  | '<' :: '!' :: '-' :: '-' :: '-' :: _ => some .tag
  | '<' :: '!' :: '-' :: '-' :: _ => some .html
  | _ => none

/-- Read markup that starts at an offset. -/
def readMarkup (offset : Nat) (text : List Char) : List Event :=
  match text with
  | [] => []
  | c :: rest =>
    match markupComment? (c :: rest) with
    | some kind =>
      match _found : cutAt? kind.closing ((c :: rest).drop kind.opening.length) with
      | none => [.fault offset (.openComment kind)]
      | some (body, after) =>
        commentEvent offset kind body ::
          readMarkup (offset + Text.byteLength (kind.opening ++ body ++ kind.closing)) after
    | none =>
      if startsWith blockOpening (c :: rest) then
        match _found : cutAt? ['>'] (c :: rest) with
        | none => [.fault offset .openTag]
        | some (head, body) =>
          let start := offset + Text.byteLength head + 1
          match _closed : cutBefore? blockClosing body with
          | none => .fault offset .openBlock :: readBlock start body []
          | some (inside, beyond) =>
            readBlock start inside beyond ++
              (match _ended : cutAt? ['>'] beyond with
              | none => []
              | some (tag, after) =>
                readMarkup (start + Text.byteLength inside + Text.byteLength tag + 1) after)
      else readMarkup (offset + c.utf8Size) rest
termination_by text.length
decreasing_by
  · have total := congrArg List.length (cutAt?_eq_some _found)
    have first := opening_length_pos kind
    simp only [List.length_append, List.length_drop, List.length_cons] at total ⊢
    omega
  · have outer := congrArg List.length (cutAt?_eq_some _found)
    have middle := congrArg List.length (cutBefore?_eq_some _closed)
    have inner := congrArg List.length (cutAt?_eq_some _ended)
    simp only [List.length_append, List.length_cons] at outer middle inner ⊢
    omega
  · simp

/-- Extensions of files that hold script unless they start with markup. -/
def scriptExtensions : List String := ["cfc", "bx", "bxs", "cfs"]

/-- Whether a file is script as a whole. -/
def isScriptSource (path : String) (content : List Char) : Bool :=
  scriptExtensions.contains (Path.extension path) &&
    (Text.trimStart content).head? != some '<'

/-- What is met while reading a file. -/
def events (path : String) (content : List Char) : List Event :=
  if isScriptSource path content then readBlock 0 content [] else readMarkup 0 content

/-- The issue of a fault. -/
def issue? (content : List Char) : Event → Option Issue
  | .fault offset fault =>
    some (.syntaxError (Text.positionAt content offset) (fault.message content))
  | .comment .. => none

/-- The comment of a comment event; a line comment loses the carriage returns at its end. -/
def comment? (content : List Char) : Event → Option Comment
  | .comment kind body start stop =>
    some ⟨kind, if kind = .line then Text.dropEndWhile (· == '\r') body else body,
      Text.positionAt content start, Text.positionAt content stop⟩
  | .fault .. => none

/-- The byte offset of the first null character. -/
def nullOffset? : List Char → Option Nat
  | [] => none
  | c :: rest =>
    if c = '\x00' then some 0 else (nullOffset? rest).map fun offset => offset + c.utf8Size

/-- Read a file by its structure. Text with a null character is taken for binary data. -/
def parse (path : String) (content : List Char) : Except ParseError Parsed :=
  match nullOffset? content with
  | some offset =>
    .error (.located path (Text.positionAt content offset) "Binary content cannot be parsed")
  | none =>
    let met := events path content
    let parsed := (Parsed.ofContent path content true).withIssues (met.filterMap (issue? content))
    .ok { parsed with comments := met.filterMap (comment? content) }

end CfmlTidy.Script
