import CfmlTidy.Log
import CfmlTidy.Parse.Backend
import CfmlTidy.Rule.Registry
import CfmlTidy.Severity

/-!
# Invocations

What a command line asks for: a command with its inputs, and the choices that hold for every
command.
-/

namespace CfmlTidy.Command

/-- When output is colored. -/
inductive ColorChoice where
  /-- On a terminal. -/
  | auto
  /-- Always. -/
  | always
  /-- Never. -/
  | never
deriving Repr, DecidableEq, Inhabited

/-- Whether output that does not go to a terminal is colored. -/
def ColorChoice.usesColors (choice : ColorChoice) : Bool := choice == .always

/-- The input of a command that processes files, and where its report goes. -/
structure Input where
  /-- The file or directory to process. -/
  path : String
  /-- The name of the report format. -/
  format : String
  /-- The file that takes the report in place of standard output. -/
  output : Option String
  /-- The number of workers, in place of the setting. -/
  maxThreads : Option Nat
  /-- Patterns added to the include patterns of the settings. -/
  includes : List String
  /-- Patterns added to the exclude patterns of the settings. -/
  excludes : List String
deriving Repr, DecidableEq, Inhabited

/-- The choices of a command that lints. -/
structure LintChoices where
  /-- How files are routed to parsers. -/
  mode : ParserMode
  /-- Rules switched on and off by hand. -/
  rules : Option RuleSelection
  /-- The least severity that is reported. -/
  severity : Option Severity
  /-- Whether violations that are no errors count as success. -/
  ignoreViolations : Bool
deriving Repr, DecidableEq, Inhabited

/-- A command. -/
inductive Action where
  /-- Lint files. -/
  | lint (input : Input) (choices : LintChoices)
  /-- Format files. -/
  | format (input : Input) (dryRun : Bool)
  /-- Lint files, then format them. -/
  | both (input : Input) (choices : LintChoices) (dryRun : Bool)
  /-- List the rules. -/
  | rules
  /-- Show the settings found from a directory, as a summary or as a document. -/
  | showSettings (directory : String) (json : Bool)
  /-- Check the settings found from a directory. -/
  | checkSettings (directory : String)
deriving Repr, DecidableEq, Inhabited

/-- What a command line asks for. -/
structure Invocation where
  /-- How often more output was asked for. -/
  verbose : Nat
  /-- Whether log output is suppressed. -/
  quiet : Bool
  /-- When output is colored. -/
  color : ColorChoice
  /-- The settings document. -/
  config : Option String
  /-- Whether no settings document is loaded. -/
  noConfig : Bool
  /-- The rule set laid over the settings. -/
  ruleSet : Option String
  /-- The command. -/
  action : Action
deriving Repr, DecidableEq, Inhabited

/-- How much of the log an invocation shows. -/
def Invocation.verbosity (invocation : Invocation) : Verbosity :=
  .ofFlags invocation.quiet invocation.verbose

/-- Why a command line is not an invocation. -/
inductive UsageError where
  /-- A value is missing, empty where it may not be, or not one of the allowed ones. -/
  | invalidValue
  /-- A value that cannot be read. -/
  | unreadableValue
  /-- A flag was given a value. -/
  | unexpectedValue
  /-- An option or argument that does not exist here. -/
  | unknownArgument
  /-- A command that does not exist. -/
  | unknownCommand
  /-- No command where one is needed. -/
  | missingCommand
  /-- Nothing at all where a command is needed. -/
  | nothingGiven
  /-- An option given twice, or together with one that excludes it. -/
  | conflict
  /-- Help was asked for. -/
  | helpAsked
  /-- The version was asked for. -/
  | versionAsked
deriving Repr, DecidableEq, Inhabited

namespace UsageError

/-- What the user is told. -/
def message : UsageError → String
  | invalidValue => "a value is missing or not allowed"
  | unreadableValue => "a value cannot be read"
  | unexpectedValue => "an option that takes no value was given one"
  | unknownArgument => "unknown option or argument"
  | unknownCommand => "unknown command"
  | missingCommand => "a command is missing"
  | nothingGiven => "a command is missing: lint, format, both, rules or config"
  | conflict => "an option is given twice or excluded by another"
  | helpAsked => "usage: cfml-lint [OPTIONS] lint | format | both | rules | config"
  | versionAsked => "cfml-lint 0.1.0"

/-- Whether the user asked for what they are told. -/
def isAsked (error : UsageError) : Bool := error == helpAsked || error == versionAsked

end UsageError

end CfmlTidy.Command
