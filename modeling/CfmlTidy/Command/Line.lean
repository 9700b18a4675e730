import CfmlTidy.Command.Option

/-!
# Reading the command line

A command line is read word by word. A word is a command, an option, the value of the option
before it, or the argument of the command. The value of an option is looked at only when the next
word has been recognised, or at the end; a word that cannot be recognised is reported first.
Choices made after a command win over those before it.
-/

namespace CfmlTidy.Command

/-- An option whose value is not looked at yet. -/
structure Pending where
  /-- Whether the value may start with a hyphen. -/
  hyphens : Bool
  /-- Whether the option was given before. -/
  isGiven : Chosen → Bool
  /-- What the value chooses. -/
  set : String → Chosen → Except UsageError Chosen
  /-- The value, once it is there. -/
  value : Option String

/-- What has been read at one place of a command line. -/
structure Reading where
  /-- What was chosen. -/
  chosen : Chosen
  /-- The option whose value is not looked at yet. -/
  pending : Option Pending
  /-- Whether a path was read. -/
  hasPath : Bool
  /-- Whether all further words are arguments. -/
  onlyArguments : Bool

namespace Reading

/-- Nothing read yet. -/
def start : Reading := ⟨{}, none, false, false⟩

/-- The option that waits for its value. -/
def awaiting? (reading : Reading) : Option Pending :=
  reading.pending.filter fun pending => pending.value.isNone

/-- Whether the next word is a value whatever it looks like. -/
def takesAnything (reading : Reading) : Bool := reading.awaiting?.any (·.hyphens)

/-- Look at the value of the pending option. -/
def settle (reading : Reading) : Except UsageError Reading :=
  match reading.pending with
  | none => .ok reading
  | some pending =>
    match pending.value with
    | none => .error .invalidValue
    | some value =>
      if pending.isGiven reading.chosen then .error .conflict
      else
        match pending.set value reading.chosen with
        | .error error => .error error
        | .ok chosen => .ok { reading with chosen := chosen, pending := none }

/-- Start an option that takes a value, which may be attached to it. -/
def begin (reading : Reading) (option : Opt) (hyphens : Bool)
    (set : String → Chosen → Except UsageError Chosen) (attached : Option String) :
    Except UsageError Reading := do
  let settled ← reading.settle
  let waiting := { settled with pending := some ⟨hyphens, option.isGiven, set, attached⟩ }
  if attached.isSome then waiting.settle else return waiting

/-- Apply a flag. -/
def toggle (reading : Reading) (option : Opt) (set : Chosen → Chosen) :
    Except UsageError Reading := do
  let settled ← reading.settle
  if option.isGiven settled.chosen then throw .conflict
  return { settled with chosen := set settled.chosen }

/-- End reading. -/
def stop (reading : Reading) (error : UsageError) : Except UsageError Reading := do
  let _ ← reading.settle
  throw error

/-- Give the pending option its value. -/
def giveValue (reading : Reading) (value : String) : Reading :=
  { reading with
    pending := reading.pending.map fun pending => { pending with value := some value } }

/-- Read an option by its long name. -/
def readLong (reading : Reading) (place : Place) (name : String) (attached : Option String) :
    Except UsageError Reading :=
  match place.long? name with
  | none => .error .unknownArgument
  | some option =>
    match option.effect with
    | .take hyphens set => reading.begin option hyphens set attached
    | .toggle set =>
      if attached.isSome then .error .unexpectedValue else reading.toggle option set
    | .stop error => if attached.isSome then .error .unexpectedValue else reading.stop error

/-- The value attached to a letter: the rest of the word, without an equals sign in front. -/
def attachedTo : List Char → Option String
  | [] => none
  | '=' :: rest => some (String.ofList rest)
  | rest => some (String.ofList rest)

/-- Read options by their letters; an option that takes a value takes the rest of the word. -/
def readShort (reading : Reading) (place : Place) : List Char → Except UsageError Reading
  | [] => .ok reading
  | letter :: rest =>
    match place.short? letter with
    | none => .error .unknownArgument
    | some option =>
      match option.effect with
      | .take hyphens set => reading.begin option hyphens set (attachedTo rest)
      | .toggle set =>
        match reading.toggle option set with
        | .error error => .error error
        | .ok next => next.readShort place rest
      | .stop error => reading.stop error

/-- What is said of an argument that has no place. -/
def strayError (reading : Reading) (place : Place) (word : String) : UsageError :=
  if place.needsCommand && !(reading.onlyArguments &&
      ((place.commands.lookup word).isSome || word == "help")) then .unknownCommand
  else .unknownArgument

/-- Read an argument: the path of the command. -/
def readArgument (reading : Reading) (place : Place) (word : String) :
    Except UsageError Reading :=
  if place.takesPath && !reading.hasPath then do
    let settled ← reading.settle
    match Opt.argument.effect with
    | .take hyphens set =>
      return { settled with
        pending := some ⟨hyphens, Opt.argument.isGiven, set, some word⟩
        hasPath := true }
    | _ => return settled
  else .error (reading.strayError place word)

/-- The name and the attached value of a long option. -/
def splitLong (text : List Char) : String × Option String :=
  match text.dropWhile (· != '=') with
  | _ :: value => (String.ofList (text.takeWhile (· != '=')), some (String.ofList value))
  | [] => (String.ofList text, none)

/-- Read a word that is no command. -/
def readWord (reading : Reading) (place : Place) (word : String) : Except UsageError Reading :=
  if reading.onlyArguments then reading.readArgument place word
  else if reading.takesAnything then .ok (reading.giveValue word)
  else
    match word.toList with
    | ['-', '-'] => .ok { reading with onlyArguments := true }
    | '-' :: '-' :: text =>
      let (name, attached) := splitLong text
      reading.readLong place name attached
    | '-' :: letter :: letters => reading.readShort place (letter :: letters)
    | _ =>
      if reading.awaiting?.isSome then .ok (reading.giveValue word)
      else reading.readArgument place word

/-- Read the end of a place: the last value, whether a command is missing, and choices that
exclude each other. -/
def finish (reading : Reading) (place : Place) (hasCommand : Bool) : Except UsageError Chosen := do
  let settled ← reading.settle
  if place.needsCommand && !hasCommand then
    throw (if settled.chosen = {} then .nothingGiven else .missingCommand)
  if settled.chosen.config.isSome && settled.chosen.noConfig then throw .conflict
  return settled.chosen

/-- The command that a word stands for. A word that is the value of an option is none. -/
def commandOf? (reading : Reading) (place : Place) (word : String) : Option Place :=
  if reading.onlyArguments || reading.awaiting?.isSome then none else place.commands.lookup word

/-- Whether a word asks for help on commands. -/
def asksHelp (reading : Reading) (place : Place) (word : String) : Bool :=
  !reading.onlyArguments && reading.awaiting?.isNone && place.needsCommand && word == "help"

end Reading

/-- Help on the command that words name; every command has help. -/
def helpOn (place : Place) : List String → UsageError
  | [] => .helpAsked
  | word :: rest =>
    match place.commands.lookup word with
    | some next => helpOn next rest
    | none =>
      if place.needsCommand && word == "help" && rest.isEmpty then .helpAsked else .unknownCommand

/-- Read the words from a place on: the place of the last command, and what was chosen. -/
def readWords (place : Place) (reading : Reading) :
    List String → Except UsageError (Place × Chosen)
  | [] => do return (place, ← reading.finish place false)
  | word :: rest =>
    if reading.asksHelp place word then .error (helpOn place rest)
    else
      match reading.commandOf? place word with
      | some next => do
        let (last, later) ← readWords next .start rest
        let earlier ← reading.finish place true
        return (last, later.over earlier)
      | none =>
        match reading.readWord place word with
        | .error error => .error error
        | .ok further => readWords place further rest

/-- The input that was chosen. -/
def Chosen.input (chosen : Chosen) : Input where
  path := chosen.path.getD "."
  format := chosen.format.getD "text"
  output := chosen.output
  maxThreads := chosen.maxThreads
  includes := chosen.includes
  excludes := chosen.excludes

/-- The choices for linting. -/
def Chosen.lintChoices (chosen : Chosen) : LintChoices where
  mode := chosen.mode.getD .auto
  rules := chosen.rules
  severity := chosen.severity
  ignoreViolations := chosen.ignoreViolations

/-- The command of a place; a place that needs a command has none. -/
def actionOf? (place : Place) (chosen : Chosen) : Option Action :=
  match place with
  | .lint => some (.lint chosen.input chosen.lintChoices)
  | .format => some (.format chosen.input chosen.dryRun)
  | .both => some (.both chosen.input chosen.lintChoices chosen.dryRun)
  | .rules => some .rules
  | .configShow => some (.showSettings (chosen.path.getD ".") chosen.json)
  | .configValidate => some (.checkSettings (chosen.path.getD "."))
  | .top | .config => none

/-- The invocation of a command line, given by its words. -/
def Invocation.ofWords (words : List String) : Except UsageError Invocation := do
  let (place, chosen) ← readWords .top .start words
  match actionOf? place chosen with
  | none => throw .missingCommand
  | some action =>
    return {
      verbose := chosen.verbose.getD 0
      quiet := chosen.quiet
      color := chosen.color.getD .auto
      config := chosen.config
      noConfig := chosen.noConfig
      ruleSet := chosen.ruleSet
      action := action }

end CfmlTidy.Command
