import CfmlTidy.Encoding.Utf8

/-!
# Globs

Patterns over paths: a question mark for one byte, a star for a run, two stars for any number of
directories, classes, and groups of alternatives in braces. A glob is read into tokens and matched
against the bytes of a path; whether the wildcards cross a slash is an option of matching.
-/

namespace CfmlTidy.Glob

/-- A part of a glob. -/
inductive Token where
  /-- A character that stands for itself. -/
  | literal (c : Char)
  /-- Any one byte. -/
  | any
  /-- A run of bytes. -/
  | run
  /-- Two stars at the start: nothing, a slash, or directories. -/
  | leadingDirs
  /-- Two stars at the end: a slash and anything. -/
  | trailingDirs
  /-- Two stars between slashes: a slash, or directories between two. -/
  | innerDirs
  /-- One byte inside or, when negated, outside the ranges. -/
  | class (negated : Bool) (ranges : List (Char × Char))
  /-- One of several branches. -/
  | group (branches : List (List Token))
deriving Repr, Inhabited

/-- What can be wrong with a glob. -/
inductive Fault where
  /-- A class without its closing bracket. -/
  | openClass
  /-- A range whose end lies before its start. -/
  | invalidRange (first last : Char)
  /-- A closing brace without an opening one. -/
  | unexpectedClose
  /-- A group without its closing brace. -/
  | openGroup
  /-- A backslash at the end. -/
  | danglingEscape
deriving Repr, DecidableEq

/-- The wording of a fault. -/
def Fault.reason : Fault → String
  | openClass => "unclosed character class; missing ']'"
  | invalidRange first last =>
    "invalid range; '" ++ String.singleton first ++ "' > '" ++ String.singleton last ++ "'"
  | unexpectedClose =>
    "unopened alternate group; missing '\x7b' (maybe escape '\x7d' with '[\x7d]'?)"
  | openGroup => "unclosed alternate group; missing '\x7d' (maybe escape '\x7b' with '[\x7b]'?)"
  | danglingEscape => "dangling '\\'"

/-- The message for a glob with a fault. -/
def Fault.message (glob : String) (fault : Fault) : String :=
  "error parsing glob '" ++ glob ++ "': " ++ fault.reason

/-- A group that is still open: its finished branches, and the tokens before it, last first. -/
structure OpenGroup where
  /-- Finished branches in order. -/
  branches : List (List Token)
  /-- Tokens before the group, last first. -/
  before : List Token

/-- What has been read: the tokens of the current branch, last first, and the open groups,
innermost first. -/
structure Reading where
  /-- Tokens of the current branch, last first. -/
  current : List Token
  /-- Open groups, innermost first. -/
  groups : List OpenGroup

namespace Reading

/-- Nothing read yet. -/
def empty : Reading := ⟨[], []⟩

/-- Add a token. -/
def push (reading : Reading) (token : Token) : Reading :=
  { reading with current := token :: reading.current }

/-- Open a group. -/
def openGroup (reading : Reading) : Reading :=
  ⟨[], ⟨[], reading.current⟩ :: reading.groups⟩

/-- A comma: a new branch inside a group, a literal outside. -/
def comma (reading : Reading) : Reading :=
  match reading.groups with
  | [] => reading.push (.literal ',')
  | group :: outer =>
    ⟨[], { group with branches := group.branches ++ [reading.current.reverse] } :: outer⟩

/-- Close the innermost group. -/
def closeGroup (reading : Reading) : Except Fault Reading :=
  match reading.groups with
  | [] => .error .unexpectedClose
  | group :: outer =>
    .ok ⟨.group (group.branches ++ [reading.current.reverse]) :: group.before, outer⟩

/-- The tokens, unless a group is still open. -/
def finish (reading : Reading) : Except Fault (List Token) :=
  if reading.groups.isEmpty then .ok reading.current.reverse else .error .openGroup

/-- Replace the separator before two stars, which the directory token includes. A directory token
there already is kept. -/
def replaceLast (reading : Reading) (token : Token) : Reading :=
  match reading.current with
  | .leadingDirs :: _ | .trailingDirs :: _ => reading
  | _ :: rest => { reading with current := token :: rest }
  | [] => reading.push token

/-- Two runs, for two stars that stand for no directories. -/
def twoRuns (reading : Reading) : Reading := (reading.push .run).push .run

/-- Whether two stars after a character may stand for directories. -/
def mayBeDirs (reading : Reading) (previous : Option Char) : Bool :=
  previous == some '/' ||
    (!reading.groups.isEmpty && (previous == some ',' || previous == some '{'))

end Reading

/-- Where the reader is. -/
inductive Mode where
  /-- Outside classes, after a character. -/
  | plain (previous : Option Char)
  /-- After the bracket that opens a class. -/
  | classStart
  /-- In a class: its ranges, last first, whether the next character is the first, and whether
  it ends a range. -/
  | inClass (negated : Bool) (ranges : List (Char × Char)) (first inRange : Bool)

/-- End the last range of a class at a character. -/
def endRange (ranges : List (Char × Char)) (last : Char) : Except Fault (List (Char × Char)) :=
  match ranges with
  | (first, _) :: rest =>
    if last < first then .error (.invalidRange first last) else .ok ((first, last) :: rest)
  | [] => .ok [(last, last)]

/-- Take one character of a class: the class when it ends, else how reading goes on. -/
def stepClass (negated : Bool) (ranges : List (Char × Char)) (first inRange : Bool) (c : Char) :
    Except Fault (Token ⊕ Mode) :=
  if c = ']' && !first then
    .ok (.inl (.class negated (if inRange then ('-', '-') :: ranges else ranges).reverse))
  else if c = '-' && !first && !inRange then .ok (.inr (.inClass negated ranges false true))
  else if inRange then do
    let ended ← endRange ranges c
    .ok (.inr (.inClass negated ended false false))
  else .ok (.inr (.inClass negated ((c, c) :: ranges) false false))

/-- Read a glob from a place on. -/
def readFrom : Mode → Reading → List Char → Except Fault (List Token)
  | .plain _, reading, [] => reading.finish
  | .classStart, _, [] => .error .openClass
  | .inClass .., _, [] => .error .openClass
  | .classStart, reading, c :: rest =>
    if c = '!' || c = '^' then readFrom (.inClass true [] true false) reading rest
    else
      match stepClass false [] true false c with
      | .error fault => .error fault
      | .ok (.inl token) => readFrom (.plain (some c)) (reading.push token) rest
      | .ok (.inr mode) => readFrom mode reading rest
  | .inClass negated ranges first inRange, reading, c :: rest =>
    match stepClass negated ranges first inRange c with
    | .error fault => .error fault
    | .ok (.inl token) => readFrom (.plain (some c)) (reading.push token) rest
    | .ok (.inr mode) => readFrom mode reading rest
  | .plain previous, reading, '*' :: '*' :: '/' :: rest =>
    if reading.current.isEmpty then
      readFrom (.plain (some '/')) (reading.push .leadingDirs) rest
    else if reading.mayBeDirs previous then
      readFrom (.plain (some '/')) (reading.replaceLast .innerDirs) rest
    else readFrom (.plain (some '/')) (reading.twoRuns.push (.literal '/')) rest
  | .plain previous, reading, '*' :: '*' :: rest =>
    if reading.current.isEmpty then
      if rest.isEmpty then readFrom (.plain (some '*')) (reading.push .leadingDirs) rest
      else readFrom (.plain (some '*')) reading.twoRuns rest
    else if reading.mayBeDirs previous &&
        (rest.isEmpty ||
          (!reading.groups.isEmpty && (rest.head? == some ',' || rest.head? == some '}'))) then
      readFrom (.plain (some '*')) (reading.replaceLast .trailingDirs) rest
    else readFrom (.plain (some '*')) reading.twoRuns rest
  | .plain _, _, ['\\'] => .error .danglingEscape
  | .plain _, reading, '\\' :: c :: rest =>
    readFrom (.plain (some c)) (reading.push (.literal c)) rest
  | .plain _, reading, c :: rest =>
    if c = '?' then readFrom (.plain (some c)) (reading.push .any) rest
    else if c = '*' then readFrom (.plain (some c)) (reading.push .run) rest
    else if c = '[' then readFrom .classStart reading rest
    else if c = '{' then readFrom (.plain (some c)) reading.openGroup rest
    else if c = '}' then
      match reading.closeGroup with
      | .error fault => .error fault
      | .ok closed => readFrom (.plain (some c)) closed rest
    else if c = ',' then readFrom (.plain (some c)) reading.comma rest
    else readFrom (.plain (some c)) (reading.push (.literal c)) rest

/-- The tokens of a glob. -/
def read (glob : String) : Except Fault (List Token) :=
  readFrom (.plain none) .empty glob.toList

/-- The slash between the parts of a path. -/
def slash : UInt8 := 0x2F

/-- Some beginning of the bytes, all of which `allowed` admits, is followed by what is wanted. -/
def someRun (allowed : UInt8 → Bool) (next : List UInt8 → Bool) : List UInt8 → Bool
  | [] => next []
  | byte :: rest => next (byte :: rest) || (allowed byte && someRun allowed next rest)

/-- Any bytes and a slash are followed by what is wanted. -/
def someDirs (next : List UInt8 → Bool) : List UInt8 → Bool
  | [] => false
  | byte :: rest => (byte == slash && next rest) || someDirs next rest

/-- The byte ranges of a class. A character of several bytes stands for each of its bytes, and in
a range only the bytes next to the hyphen bound it. -/
def byteRanges (range : Char × Char) : List (UInt8 × UInt8) :=
  let first := String.utf8EncodeChar range.1
  let last := String.utf8EncodeChar range.2
  if range.1 = range.2 then first.map fun byte => (byte, byte)
  else
    (first.dropLast.map fun byte => (byte, byte)) ++
      [(first.getLastD 0, last.headD 0)] ++ (last.drop 1).map fun byte => (byte, byte)

/-- Whether a byte lies in the ranges of a class. -/
def inClass (ranges : List (Char × Char)) (byte : UInt8) : Bool :=
  (ranges.flatMap byteRanges).any fun range => range.1 ≤ byte && byte ≤ range.2

/-- The bytes left when some bytes start with others. -/
def strip? : (start bytes : List UInt8) → Option (List UInt8)
  | [], bytes => some bytes
  | _ :: _, [] => none
  | expected :: start, byte :: bytes => if expected = byte then strip? start bytes else none

mutual

/-- Whether a token stands for nothing at all: a group without a branch that stands for
something. -/
def Token.isVoid : Token → Bool
  | .group branches => allVoid branches
  | _ => false

/-- Whether every token stands for nothing. -/
def isVoid : List Token → Bool
  | [] => true
  | token :: rest => token.isVoid && isVoid rest

/-- Whether every branch stands for nothing. -/
def allVoid : List (List Token) → Bool
  | [] => true
  | branch :: rest => isVoid branch && allVoid rest

end

mutual

/-- Whether a token matches some beginning of the bytes that is followed by what is wanted. The
option says whether wildcards stop at slashes. -/
def Token.accepts (stop : Bool) (next : List UInt8 → Bool) : Token → List UInt8 → Bool
  | .literal c, bytes =>
    match strip? (String.utf8EncodeChar c) bytes with
    | some rest => next rest
    | none => false
  | .any, bytes =>
    match bytes with
    | [] => false
    | byte :: rest => (!stop || byte != slash) && next rest
  | .run, bytes => someRun (fun byte => !stop || byte != slash) next bytes
  | .leadingDirs, bytes => next bytes || someDirs next bytes
  | .trailingDirs, bytes =>
    match bytes with
    | [] => false
    | byte :: rest => byte == slash && someRun (fun _ => true) next rest
  | .innerDirs, bytes =>
    match bytes with
    | [] => false
    | byte :: rest => byte == slash && (next rest || someDirs next rest)
  | .class negated ranges, bytes =>
    match bytes with
    | [] => false
    | byte :: rest => (inClass ranges byte != negated) && next rest
  | .group branches, bytes =>
    if allVoid branches then next bytes else acceptsBranch stop next branches bytes

/-- Whether tokens in order match a beginning of the bytes that is followed by what is wanted. -/
def acceptsAll (stop : Bool) (next : List UInt8 → Bool) : List Token → List UInt8 → Bool
  | [], bytes => next bytes
  | token :: rest, bytes => token.accepts stop (fun later => acceptsAll stop next rest later) bytes

/-- Whether one of the branches that stand for something matches. -/
def acceptsBranch (stop : Bool) (next : List UInt8 → Bool) : List (List Token) → List UInt8 → Bool
  | [], _ => false
  | branch :: rest, bytes =>
    (!isVoid branch && acceptsAll stop next branch bytes) || acceptsBranch stop next rest bytes

end

/-- Whether tokens match a whole path. Two stars alone match everything. -/
def accepts (stop : Bool) (tokens : List Token) (path : String) : Bool :=
  match tokens with
  | [.leadingDirs] => true
  | _ => acceptsAll stop List.isEmpty tokens (Encoding.Utf8.encode path.toList)

end CfmlTidy.Glob
