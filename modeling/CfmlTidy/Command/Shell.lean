import CfmlTidy.Encoding.Utf8
import CfmlTidy.Launcher
import CfmlTidy.Text.Blank

/-!
# A small shell

The launcher that commands have unless their surroundings bring another one. It knows one-line
scripts: statements of plain words with quotes and redirections, linked by success or failure, over
a few built-in programs. Running one is a function of its words and its input. No statement about
the rest of the library depends on it.
-/

namespace CfmlTidy.Command.Shell

open CfmlTidy.Launcher (Outcome Status signalNames)

/-- When a statement is run, given how the one before it went. -/
inductive Link where
  /-- In any case. -/
  | always
  /-- When it went well. -/
  | ifOk
  /-- When it failed. -/
  | ifFailed
deriving DecidableEq

/-- A stream that a program writes to. -/
inductive Stream where
  /-- The output. -/
  | output
  /-- The error output. -/
  | errors
deriving DecidableEq

/-- A token of a script. -/
inductive Token where
  /-- A word. -/
  | word (text : List Char)
  /-- The end of a statement, with the link to the next one. -/
  | stop (link : Link)
  /-- A redirection of a stream; its target is the next word. -/
  | redirect (stream : Stream)

/-- The quotes that a character stands in. -/
inductive Quotes where
  /-- None. -/
  | bare
  /-- Single quotes, in which every character stands for itself. -/
  | single
  /-- Double quotes. -/
  | double

/-- The word collected so far, if one was begun; its characters are reversed. -/
def flush : Option (List Char) → List Token
  | some seen => [.word seen.reverse]
  | none => []

/-- A redirection after the word collected so far; the number of a stream belongs to it. -/
def redirection : Option (List Char) → List Token
  | some ['2'] => [.redirect .errors]
  | some ['1'] => [.redirect .output]
  | seen => flush seen ++ [.redirect .output]

/-- Add a character to the word collected so far. -/
def extend (seen : Option (List Char)) (c : Char) : Option (List Char) :=
  some (c :: seen.getD [])

/-- Whether a backslash in double quotes escapes a character; before any other it stays. -/
def isQuotable (c : Char) : Bool := c == '"' || c == '\\' || c == '$' || c == '\x60'

/-- The tokens of a script. -/
def tokens : Quotes → Option (List Char) → List Char → List Token
  | _, seen, [] => flush seen
  | .single, seen, c :: rest =>
    if c = '\'' then tokens .bare seen rest else tokens .single (extend seen c) rest
  | .double, seen, '\\' :: c :: rest =>
    tokens .double (extend (if isQuotable c then seen else extend seen '\\') c) rest
  | .double, seen, c :: rest =>
    if c = '"' then tokens .bare seen rest else tokens .double (extend seen c) rest
  | .bare, seen, '\\' :: c :: rest => tokens .bare (extend seen c) rest
  | .bare, seen, '&' :: '&' :: rest => flush seen ++ .stop .ifOk :: tokens .bare none rest
  | .bare, seen, '|' :: '|' :: rest => flush seen ++ .stop .ifFailed :: tokens .bare none rest
  | .bare, seen, c :: rest =>
    if c = '\'' then tokens .single (some (seen.getD [])) rest
    else if c = '"' then tokens .double (some (seen.getD [])) rest
    else if c = ';' || c = '\n' then flush seen ++ .stop .always :: tokens .bare none rest
    else if c = '>' then redirection seen ++ tokens .bare none rest
    else if c = ' ' || c = '\t' then flush seen ++ tokens .bare none rest
    else tokens .bare (extend seen c) rest

/-- Where the output of a statement goes. -/
inductive Target where
  /-- To the output. -/
  | output
  /-- To the error output. -/
  | errors
  /-- Nowhere. -/
  | nowhere
deriving DecidableEq

/-- Where the two streams of a statement go. -/
structure Targets where
  /-- Where the output goes. -/
  output : Target
  /-- Where the error output goes. -/
  errors : Target

/-- The streams of a statement without redirections. -/
def Targets.plain : Targets := ⟨.output, .errors⟩

/-- The target that a redirection names. -/
def Targets.named (targets : Targets) (name : String) : Target :=
  if name = "&1" then targets.output
  else if name = "&2" then targets.errors
  else if name = "/dev/stdout" then .output
  else if name = "/dev/stderr" then .errors
  else .nowhere

/-- The streams after a redirection. -/
def Targets.redirect (targets : Targets) (stream : Stream) (name : String) : Targets :=
  match stream with
  | .output => { targets with output := targets.named name }
  | .errors => { targets with errors := targets.named name }

/-- A statement: when it is run, its words and where its streams go. -/
structure Statement where
  /-- When it is run. -/
  link : Link
  /-- Program and arguments. -/
  words : List String
  /-- Where its streams go. -/
  targets : Targets

/-- Put tokens together to statements; the words collected so far are reversed. -/
def statements : Link → List String → Targets → List Token → List Statement
  | link, seen, targets, [] => if seen.isEmpty then [] else [⟨link, seen.reverse, targets⟩]
  | link, seen, targets, .redirect stream :: .word name :: rest =>
    statements link seen (targets.redirect stream (String.ofList name)) rest
  | link, seen, targets, .word text :: rest =>
    statements link (String.ofList text :: seen) targets rest
  | link, seen, targets, .stop next :: rest =>
    (if seen.isEmpty then [] else [⟨link, seen.reverse, targets⟩]) ++
      statements next [] .plain rest
  | link, seen, targets, .redirect _ :: rest => statements link seen targets rest

/-- Value of an octal digit. -/
def octal? (c : Char) : Option Nat :=
  if '0' ≤ c && c ≤ '7' then some (c.toNat - '0'.toNat) else none

/-- Bytes of a text in which backslashes escape: letters for control characters, up to three
octal digits for a byte. -/
def unescape : List Char → List UInt8
  | [] => []
  | '\\' :: a :: b :: c :: rest =>
    match octal? a, octal? b, octal? c with
    | some x, some y, some z => UInt8.ofNat (x * 64 + y * 8 + z) :: unescape rest
    | some x, some y, none => UInt8.ofNat (x * 8 + y) :: unescape (c :: rest)
    | some x, none, _ => UInt8.ofNat x :: unescape (b :: c :: rest)
    | none, _, _ => escape a ++ unescape (b :: c :: rest)
  | '\\' :: a :: rest => escape a ++ unescape rest
  | c :: rest => Encoding.Utf8.encode [c] ++ unescape rest
termination_by text => text.length
where
  /-- Bytes of an escape with one letter. -/
  escape (c : Char) : List UInt8 :=
    if c = 'n' then [10] else if c = 't' then [9] else if c = 'r' then [13]
    else if c = 'a' then [7] else if c = 'b' then [8] else if c = 'f' then [12]
    else if c = 'v' then [11] else if c = '\\' then [92]
    else Encoding.Utf8.encode ['\\', c]

/-- A format with its arguments filled in, and the arguments left over. Text between arguments is
collected reversed until it is unescaped. -/
def fill : List Char → List Char → List String → List UInt8 × List String
  | seen, [], args => (unescape seen.reverse, args)
  | seen, '%' :: '%' :: rest, args => fill ('%' :: seen) rest args
  | seen, '%' :: c :: rest, args =>
    if c = 's' || c = 'd' then
      let (bytes, left) := fill [] rest (args.drop 1)
      (unescape seen.reverse ++ Encoding.Utf8.encode (args.head?.getD "").toList ++ bytes, left)
    else fill (c :: '%' :: seen) rest args
  | seen, c :: rest, args => fill (c :: seen) rest args

/-- A format used again and again until its arguments are used up. -/
def fillAll (format : List Char) : Nat → List String → List UInt8
  | 0, _ => []
  | rounds + 1, args =>
    let (bytes, left) := fill [] format args
    if left.isEmpty || left.length = args.length then bytes
    else bytes ++ fillAll format rounds left

/-- Everything a running script changes. -/
structure Process where
  /-- Input not read yet. -/
  input : List UInt8
  /-- Output so far. -/
  output : List UInt8
  /-- Error output so far. -/
  errors : List UInt8
  /-- Code of the last statement. -/
  code : Nat

/-- Write to the target of a statement. -/
def Process.write (process : Process) (target : Target) (bytes : List UInt8) : Process :=
  match target with
  | .output => { process with output := process.output ++ bytes, code := 0 }
  | .errors => { process with errors := process.errors ++ bytes, code := 0 }
  | .nowhere => { process with code := 0 }

/-- The words of a statement with blanks between them. -/
def spaced (words : List String) : List Char := (Text.joinStrings " " words).toList

/-- Whether a signal ends the program that it is sent to; some are passed over or only halt it. -/
def isDeadly (signal : Nat) : Bool :=
  signal != 0 && !((17 ≤ signal && signal ≤ 23) || signal == 28)

/-- The signal of a number or a name, with or without its first three letters. -/
def signalOf? (name : String) : Option Nat :=
  match name.toNat? with
  | some number => some number
  | none => (signalNames.find? fun entry => entry.2 = name || entry.2 = "SIG" ++ name).map (·.1)

/-- The signal that the options of a program name. -/
def signalAsked? : List String → Option Nat
  | [] => some 15
  | ["-s", name] => signalOf? name
  | [option] => signalOf? (String.ofList (option.toList.drop 1))
  | _ => none

/-- How a script ends that sends a signal to itself. -/
def endedBy (options : List String) : Option Status :=
  ((signalAsked? options).filter isDeadly).map fun signal => .signalled signal false

/-- What `echo` writes: its arguments, and a newline unless the first argument asks for none. -/
def echoed : List String → List UInt8
  | "-n" :: args => unescape (spaced args)
  | args => unescape (spaced args) ++ [10]

/-- Run one statement: the process after it, and the status with which it ends the script. -/
def Process.step (process : Process) (statement : Statement) : Process × Option Status :=
  let target := statement.targets.output
  match statement.words with
  | "cat" :: _ => ({ process.write target process.input with input := [] }, none)
  | "echo" :: args => (process.write target (echoed args), none)
  | "printf" :: format :: args =>
    (process.write target (fillAll format.toList (args.length + 1) args), none)
  | "true" :: _ | ":" :: _ | "sleep" :: _ => ({ process with code := 0 }, none)
  | "false" :: _ => ({ process with code := 1 }, none)
  | ["exit"] => (process, some (.exited process.code))
  | "exit" :: code :: _ => (process, some (.exited (code.toNat?.getD 2 % 256)))
  | ["kill", "$$"] => (process, endedBy [])
  | ["kill", option, "$$"] => (process, endedBy [option])
  | ["kill", option, name, "$$"] => (process, endedBy [option, name])
  | name :: _ =>
    ({ process.write statement.targets.errors
        (Encoding.Utf8.encode ("sh: 1: " ++ name ++ ": not found\n").toList) with
        code := 127 }, none)
  | [] => (process, none)

/-- Whether a statement is run after a code. -/
def Link.allows : Link → Nat → Bool
  | .always, _ => true
  | .ifOk, code => code == 0
  | .ifFailed, code => code != 0

/-- Run statements in order until one ends the script. -/
def Process.run (process : Process) : List Statement → Outcome
  | [] => ⟨.exited process.code, process.output, process.errors⟩
  | statement :: rest =>
    if !statement.link.allows process.code then process.run rest
    else
      match process.step statement with
      | (next, some status) => ⟨status, next.output, next.errors⟩
      | (next, none) => next.run rest

/-- Run a script on an input. -/
def runScript (script : List Char) (input : List UInt8) : Outcome :=
  Process.run ⟨input, [], [], 0⟩ (statements .always [] .plain (tokens .bare none script))

/-- What is said of a program that does not exist. -/
def notFound : String := "No such file or directory (os error 2)"

/-- Run a program with its arguments on an input, unless there is no such program. -/
def start (program : String) (args : List String) (input : List UInt8) : Except String Outcome :=
  match program, args with
  | "sh", "-c" :: script :: _ | "/bin/sh", "-c" :: script :: _ =>
    .ok (runScript script.toList input)
  | "sh", [] | "/bin/sh", [] => .ok (runScript (Encoding.Utf8.decode input) [])
  | "cat", [] => .ok ⟨.exited 0, input, []⟩
  | "true", _ => .ok ⟨.exited 0, [], []⟩
  | "false", _ => .ok ⟨.exited 1, [], []⟩
  | "echo", args => .ok ⟨.exited 0, Encoding.Utf8.encode (spaced args) ++ [10], []⟩
  | _, _ => .error notFound

/-- Starting programs with the shell. -/
instance launcher : Launcher := ⟨start⟩

end CfmlTidy.Command.Shell
