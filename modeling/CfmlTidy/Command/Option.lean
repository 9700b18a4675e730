import CfmlTidy.Command.Invocation
import CfmlTidy.Text.Letter

/-!
# Options of the command line

The places of a command line where options can stand, and for each option how it is spelled and
what it chooses. An option is a flag, takes a value, or ends reading at once.
-/

namespace CfmlTidy.Command

/-- Everything that can be chosen at one place of a command line. -/
structure Chosen where
  /-- How often more output was asked for. -/
  verbose : Option Nat := none
  /-- No log output. -/
  quiet : Bool := false
  /-- When output is colored. -/
  color : Option ColorChoice := none
  /-- The settings document. -/
  config : Option String := none
  /-- No settings document. -/
  noConfig : Bool := false
  /-- The rule set. -/
  ruleSet : Option String := none
  /-- The file or directory of the command. -/
  path : Option String := none
  /-- The report format. -/
  format : Option String := none
  /-- The file of the report. -/
  output : Option String := none
  /-- The number of workers. -/
  maxThreads : Option Nat := none
  /-- Further include patterns. -/
  includes : List String := []
  /-- Further exclude patterns. -/
  excludes : List String := []
  /-- How files are routed to parsers. -/
  mode : Option ParserMode := none
  /-- Rules switched by hand. -/
  rules : Option RuleSelection := none
  /-- The least severity. -/
  severity : Option Severity := none
  /-- Violations count as success. -/
  ignoreViolations : Bool := false
  /-- Nothing is written. -/
  dryRun : Bool := false
  /-- The document in place of a summary. -/
  json : Bool := false
deriving Repr, DecidableEq, Inhabited

/-- Choices together with those of the place before: what was chosen later wins. -/
def Chosen.over (later earlier : Chosen) : Chosen where
  verbose := later.verbose <|> earlier.verbose
  quiet := later.quiet || earlier.quiet
  color := later.color <|> earlier.color
  config := later.config <|> earlier.config
  noConfig := later.noConfig || earlier.noConfig
  ruleSet := later.ruleSet <|> earlier.ruleSet
  path := later.path <|> earlier.path
  format := later.format <|> earlier.format
  output := later.output <|> earlier.output
  maxThreads := later.maxThreads <|> earlier.maxThreads
  includes := earlier.includes ++ later.includes
  excludes := earlier.excludes ++ later.excludes
  mode := later.mode <|> earlier.mode
  rules := later.rules <|> earlier.rules
  severity := later.severity <|> earlier.severity
  ignoreViolations := later.ignoreViolations || earlier.ignoreViolations
  dryRun := later.dryRun || earlier.dryRun
  json := later.json || earlier.json

/-- What an option does. -/
inductive Effect where
  /-- Choose something. -/
  | toggle (set : Chosen → Chosen)
  /-- Choose by the value that follows; `hyphens` says that it may start with a hyphen. -/
  | take (hyphens : Bool) (set : String → Chosen → Except UsageError Chosen)
  /-- End reading. -/
  | stop (error : UsageError)

/-- An option: its spellings and what it does. -/
structure Opt where
  /-- The name after two hyphens. -/
  long : String
  /-- The letter after one hyphen. -/
  short : Option Char
  /-- Whether it was given, for options that may be given once only. -/
  isGiven : Chosen → Bool
  /-- What it does. -/
  effect : Effect

namespace Opt

/-- A flag that may be given once. -/
def flag (long : String) (short : Option Char) (isGiven : Chosen → Bool)
    (set : Chosen → Chosen) : Opt :=
  ⟨long, short, isGiven, .toggle set⟩

/-- An option with a text. -/
def text (long : String) (short : Option Char) (isGiven : Chosen → Bool)
    (set : String → Chosen → Chosen) : Opt :=
  ⟨long, short, isGiven, .take false fun value chosen => .ok (set value chosen)⟩

/-- An option with a path, which may not be empty. -/
def path (long : String) (short : Option Char) (isGiven : Chosen → Bool)
    (set : String → Chosen → Chosen) : Opt :=
  ⟨long, short, isGiven, .take false fun value chosen =>
    if value.isEmpty then .error .invalidValue else .ok (set value chosen)⟩

/-- An option whose value is read by a function; `error` is the error when that fails. -/
def read {α : Type} (long : String) (hyphens : Bool) (error : UsageError)
    (isGiven : Chosen → Bool) (parse : String → Option α) (set : α → Chosen → Chosen) : Opt :=
  ⟨long, none, isGiven, .take hyphens fun value chosen =>
    match parse value with
    | some found => .ok (set found chosen)
    | none => .error error⟩

/-- The most times that more output can be asked for. -/
def maxVerbose : Nat := 255

/-- More output. -/
def verbose : Opt :=
  flag "verbose" (some 'v') (fun _ => false) fun chosen =>
    { chosen with verbose := some (min (chosen.verbose.getD 0 + 1) maxVerbose) }

/-- No log output. -/
def quiet : Opt :=
  flag "quiet" (some 'q') (·.quiet) fun chosen => { chosen with quiet := true }

/-- The color choice of a name. -/
def colorOf? (name : String) : Option ColorChoice :=
  [("auto", ColorChoice.auto), ("always", .always), ("never", .never)].lookup name

/-- When output is colored. -/
def color : Opt :=
  read "color" false .invalidValue (·.color.isSome) colorOf? fun value chosen =>
    { chosen with color := some value }

/-- The settings document. -/
def config : Opt :=
  path "config" (some 'c') (·.config.isSome) fun value chosen =>
    { chosen with config := some value }

/-- No settings document. -/
def noConfig : Opt :=
  flag "no-config" none (·.noConfig) fun chosen => { chosen with noConfig := true }

/-- The rule set. -/
def ruleSet : Opt :=
  text "rule-set" none (·.ruleSet.isSome) fun value chosen =>
    { chosen with ruleSet := some value }

/-- Help. -/
def help : Opt := ⟨"help", some 'h', fun _ => false, .stop .helpAsked⟩

/-- The version. -/
def version : Opt := ⟨"version", some 'V', fun _ => false, .stop .versionAsked⟩

/-- The options that can stand anywhere. -/
def everywhere : List Opt := [verbose, quiet, color, config, noConfig, ruleSet, help]

/-- The number of a text: decimal digits that may follow a plus sign, below two to the
sixty-fourth. -/
def countOf? (text : String) : Option Nat :=
  let digits := match text.toList with
    | '+' :: rest => rest
    | whole => whole
  let value := digits.foldl (fun sum c => sum * 10 + Json.digitValue c) 0
  if !digits.isEmpty && digits.all Json.isDigit && value < 0x10000000000000000 then some value
  else none

/-- The options of commands that process files. -/
def ofInput : List Opt :=
  [text "format" (some 'f') (·.format.isSome) fun value chosen =>
      { chosen with format := some value },
    path "output" (some 'o') (·.output.isSome) fun value chosen =>
      { chosen with output := some value },
    read "max-threads" false .unreadableValue (·.maxThreads.isSome) countOf? fun value chosen =>
      { chosen with maxThreads := some value },
    text "include" none (fun _ => false) fun value chosen =>
      { chosen with includes := chosen.includes ++ [value] },
    text "exclude" none (fun _ => false) fun value chosen =>
      { chosen with excludes := chosen.excludes ++ [value] }]

/-- The options of commands that lint. -/
def ofLint : List Opt :=
  [read "parser" false .unreadableValue (·.mode.isSome) ParserMode.ofName? fun value chosen =>
      { chosen with mode := some value },
    read "rules" true .unreadableValue (·.rules.isSome)
      (fun value => (RuleSelection.ofText value).toOption) fun value chosen =>
      { chosen with rules := some value },
    read "severity" false .unreadableValue (·.severity.isSome) Severity.ofName? fun value chosen =>
      { chosen with severity := some value },
    flag "ignore-violations" none (·.ignoreViolations) fun chosen =>
      { chosen with ignoreViolations := true }]

/-- Report changes without writing. -/
def dryRun : Opt :=
  flag "dry-run" none (·.dryRun) fun chosen => { chosen with dryRun := true }

/-- The document in place of a summary. -/
def json : Opt := flag "json" none (·.json) fun chosen => { chosen with json := true }

/-- The one argument of a command: a path. -/
def argument : Opt :=
  path "" none (·.path.isSome) fun value chosen => { chosen with path := some value }

end Opt

/-- A place of a command line: before any command, or after one. -/
inductive Place where
  /-- Before any command. -/
  | top
  /-- After `lint`. -/
  | lint
  /-- After `format`. -/
  | format
  /-- After `both`. -/
  | both
  /-- After `rules`. -/
  | rules
  /-- After `config`. -/
  | config
  /-- After `config show`. -/
  | configShow
  /-- After `config validate`. -/
  | configValidate
deriving Repr, DecidableEq, Inhabited

namespace Place

/-- The commands that can follow. -/
def commands : Place → List (String × Place)
  | top => [("lint", lint), ("format", format), ("both", both), ("rules", rules),
      ("config", config)]
  | config => [("show", configShow), ("validate", configValidate)]
  | _ => []

/-- Whether a command has to follow. -/
def needsCommand (place : Place) : Bool := !place.commands.isEmpty

/-- The options that can stand here. -/
def options : Place → List Opt
  | top => Opt.everywhere ++ [Opt.version]
  | lint => Opt.everywhere ++ Opt.ofInput ++ Opt.ofLint
  | format => Opt.everywhere ++ Opt.ofInput ++ [Opt.dryRun]
  | both => Opt.everywhere ++ Opt.ofInput ++ Opt.ofLint ++ [Opt.dryRun]
  | configShow => Opt.everywhere ++ [Opt.json]
  | rules | config | configValidate => Opt.everywhere

/-- Whether a path can stand here. -/
def takesPath : Place → Bool
  | lint | format | both | configShow | configValidate => true
  | top | rules | config => false

/-- The option of a long name. -/
def long? (place : Place) (name : String) : Option Opt :=
  place.options.find? fun option => option.long == name

/-- The option of a letter. -/
def short? (place : Place) (letter : Char) : Option Opt :=
  place.options.find? fun option => option.short == some letter

end Place

end CfmlTidy.Command
