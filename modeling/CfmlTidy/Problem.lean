import CfmlTidy.Parse.Result

/-!
# Problems

What can go wrong with a run as a whole, from settings that cannot be read to a report format
that does not exist: the wording, the label, the underlying cause, and what to do next.
-/

namespace CfmlTidy

/-- What can go wrong with a run. -/
inductive Problem where
  /-- Settings that make no sense. -/
  | settings (text : String)
  /-- A settings document that cannot be read as one. -/
  | document (path text : String)
  /-- A file that cannot be read. -/
  | unreadable (path cause : String)
  /-- A pattern that cannot be compiled. -/
  | pattern (glob cause : String)
  /-- A file that cannot be interpreted. -/
  | parse (error : ParseError)
  /-- A rule that failed. -/
  | rule (ruleId text : String)
  /-- A report format that does not exist. -/
  | format (name : String)
  /-- An operation on files that failed. -/
  | io (cause : String)
  /-- A TOML text that cannot be read. -/
  | toml (cause : String)
  /-- A JSON text that cannot be read or written. -/
  | json (cause : String)
deriving Repr, DecidableEq

namespace Problem

/-- The wording. -/
def message : Problem → String
  | settings text => "Configuration error: " ++ text
  | document path text => "Failed to parse configuration " ++ path ++ ": " ++ text
  | unreadable path _ => "Failed to read file: " ++ path
  | pattern glob _ => "Invalid glob pattern: " ++ glob
  | parse error => error.message
  | rule ruleId text => "Rule " ++ ruleId ++ " failed: " ++ text
  | format name => "Unknown output format: " ++ name
  | io cause => "IO error: " ++ cause
  | toml cause => "TOML parse error: " ++ cause
  | json cause => "JSON error: " ++ cause

/-- The short label in front of the wording. -/
def label : Problem → String
  | settings _ | document .. | toml _ => "Config"
  | unreadable .. | io _ => "IO"
  | pattern .. => "Pattern"
  | parse _ => "Parse"
  | rule .. => "Rule"
  | format _ => "Format"
  | json _ => "JSON"

/-- The underlying cause. -/
def cause? : Problem → Option String
  | unreadable _ cause => some cause
  | pattern _ cause => some cause
  | _ => none

/-- Whether a problem stops the run before any file is processed. -/
def isFatal : Problem → Bool
  | settings _ | document .. | pattern .. | format _ | toml _ => true
  | _ => false

/-- What to do next, where that is plain. -/
def suggestion? : Problem → Option String
  | settings _ | document .. | toml _ =>
    some "Run 'cfml-lint config validate' to list every problem"
  | pattern .. => some "Patterns support '*', '**' and '?'"
  | format _ => some "Use one of: text, console, json, sarif, csv, bitbucket"
  | _ => none

end Problem

end CfmlTidy
