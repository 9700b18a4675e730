import CfmlTidy.Text.Blank
import CfmlTidy.Text.Class
import CfmlTidy.Text.Letter

/-!
# Text patterns

A small language of patterns over text: character sets, greedy runs, sequences, choices, groups
and the two anchors. Matching is leftmost first: of the ways to match at a place, the one that
prefers earlier choices and longer runs is taken. `Pattern.run` passes what follows as a
continuation, so it is structural in the pattern and stops at the first success.
-/

namespace CfmlTidy.Text

/-- A place in a text: the character before it, the text from it on, and its byte offset. -/
structure Cursor where
  /-- The character before, unless the place is the start. -/
  before : Option Char
  /-- The text from the place on. -/
  rest : List Char
  /-- Bytes before the place. -/
  offset : Nat

/-- The first place of a text. -/
def Cursor.start (text : List Char) : Cursor := ⟨none, text, 0⟩

/-- What a group matched. -/
structure Capture where
  /-- The number of the group. -/
  group : Nat
  /-- Byte offset of its first character. -/
  start : Nat
  /-- The characters matched. -/
  text : List Char

/-- A pattern over text. -/
inductive Pattern where
  /-- Matches nothing, and always. -/
  | nothing
  /-- One character of a set. -/
  | one (set : Char → Bool)
  /-- As many characters of a set as what follows allows. -/
  | many (set : Char → Bool)
  /-- The start of the text or the place after a newline. -/
  | lineStart
  /-- A place with a word character on exactly one side. -/
  | wordEdge
  /-- One pattern after another. -/
  | seq (first second : Pattern)
  /-- The first pattern or, failing that, the second. -/
  | either (first second : Pattern)
  /-- A pattern whose match is recorded under a number. -/
  | group (number : Nat) (body : Pattern)

namespace Pattern

/-- Whether a place starts a line. -/
def atLineStart (cursor : Cursor) : Bool :=
  match cursor.before with
  | none => true
  | some c => c == '\n'

/-- Whether a place has a word character on exactly one side. -/
def atWordEdge (cursor : Cursor) : Bool :=
  cursor.before.any isWord != cursor.rest.head?.any isWord

/-- Match a run of characters of a set, longest first. -/
def runMany {β : Type} (set : Char → Bool) (next : Cursor → Option β) :
    Option Char → Nat → List Char → Option β
  | before, offset, [] => next ⟨before, [], offset⟩
  | before, offset, c :: rest =>
    if set c then
      match runMany set next (some c) (offset + c.utf8Size) rest with
      | some found => some found
      | none => next ⟨before, c :: rest, offset⟩
    else next ⟨before, c :: rest, offset⟩

/-- Match a pattern at a place and continue with what follows it. -/
def run {β : Type} : Pattern → (Cursor → List Capture → Option β) → Cursor → List Capture → Option β
  | nothing, next, cursor, captures => next cursor captures
  | one set, next, ⟨_, rest, offset⟩, captures =>
    match rest with
    | [] => none
    | c :: rest => if set c then next ⟨some c, rest, offset + c.utf8Size⟩ captures else none
  | many set, next, ⟨before, rest, offset⟩, captures =>
    runMany set (fun cursor => next cursor captures) before offset rest
  | lineStart, next, cursor, captures =>
    if atLineStart cursor then next cursor captures else none
  | wordEdge, next, cursor, captures =>
    if atWordEdge cursor then next cursor captures else none
  | seq first second, next, cursor, captures =>
    run first (fun cursor captures => run second next cursor captures) cursor captures
  | either first second, next, cursor, captures =>
    match run first next cursor captures with
    | some found => some found
    | none => run second next cursor captures
  | group number body, next, cursor, captures =>
    run body
      (fun stop captures =>
        next stop
          (captures ++
            [⟨number, cursor.offset, cursor.rest.take (cursor.rest.length - stop.rest.length)⟩]))
      cursor captures

/-- A match: where it starts, where it ends, and what its groups matched. -/
structure Match where
  /-- The place at which the match starts. -/
  start : Cursor
  /-- The place after the match. -/
  stop : Cursor
  /-- What the groups matched, in the order in which they closed. -/
  captures : List Capture

/-- The characters of a match. -/
def Match.text (found : Match) : List Char :=
  found.start.rest.take (found.start.rest.length - found.stop.rest.length)

/-- What a group of a match matched, unless the group took no part in it. -/
def Match.group? (found : Match) (number : Nat) : Option Capture :=
  found.captures.find? (·.group == number)

/-- The match of a pattern at one place. -/
def matchAt? (pattern : Pattern) (cursor : Cursor) : Option Match :=
  pattern.run (fun stop captures => some ⟨cursor, stop, captures⟩) cursor []

/-- The leftmost match at or after a place. -/
def findFrom? (pattern : Pattern) : Option Char → Nat → List Char → Option Match
  | before, offset, [] => pattern.matchAt? ⟨before, [], offset⟩
  | before, offset, c :: rest =>
    match pattern.matchAt? ⟨before, c :: rest, offset⟩ with
    | some found => some found
    | none => findFrom? pattern (some c) (offset + c.utf8Size) rest

/-- The leftmost match in a text. -/
def find? (pattern : Pattern) (text : List Char) : Option Match :=
  pattern.findFrom? none 0 text

/-- Whether a pattern matches somewhere in a text. -/
def occursIn (pattern : Pattern) (text : List Char) : Bool :=
  (pattern.find? text).isSome

/-- The matches from a place on, skipping places before the byte offset `resume`. -/
def findAllFrom (pattern : Pattern) (resume : Nat) :
    Option Char → Nat → List Char → List Match
  | before, offset, [] =>
    if offset < resume then [] else (pattern.matchAt? ⟨before, [], offset⟩).toList
  | before, offset, c :: rest =>
    if offset < resume then findAllFrom pattern resume (some c) (offset + c.utf8Size) rest
    else
      match pattern.matchAt? ⟨before, c :: rest, offset⟩ with
      | some found =>
        found :: findAllFrom pattern found.stop.offset (some c) (offset + c.utf8Size) rest
      | none => findAllFrom pattern resume (some c) (offset + c.utf8Size) rest

/-- The matches in a text from left to right; none overlaps the one before it. -/
def findAll (pattern : Pattern) (text : List Char) : List Match :=
  pattern.findAllFrom 0 none 0 text

/-- A pattern or nothing; the pattern is preferred. -/
def optional (pattern : Pattern) : Pattern := either pattern nothing

/-- At least one character of a set. -/
def some1 (set : Char → Bool) : Pattern := seq (one set) (many set)

/-- The patterns one after another. -/
def all : List Pattern → Pattern
  | [] => nothing
  | [pattern] => pattern
  | pattern :: patterns => seq pattern (all patterns)

/-- A choice of patterns, earlier ones preferred. -/
def oneOf : List Pattern → Pattern
  | [] => one fun _ => false
  | [pattern] => pattern
  | pattern :: patterns => either pattern (oneOf patterns)

/-- The characters of a word one after another, up to case folding. -/
def word (text : String) : Pattern :=
  all (text.toList.map fun letter => one fun c => fold c == fold letter)

/-- One given character. -/
def char (expected : Char) : Pattern := one (· == expected)

/-- Any number of blanks. -/
def blanks : Pattern := many isBlank

/-- At least one blank. -/
def blanks1 : Pattern := some1 isBlank

/-- An ASCII letter, a character that folds to one, or an underscore. -/
def isNameStart (c : Char) : Bool :=
  isAsciiLetter (fold c) || c == '_'

/-- A character that continues a name: `isNameStart` or an ASCII digit. -/
def isNamePart (c : Char) : Bool :=
  isNameStart c || isAsciiDigit c

/-- A name: a letter or underscore, then letters, digits and underscores. -/
def name : Pattern := seq (one isNameStart) (many isNamePart)

end Pattern

end CfmlTidy.Text
