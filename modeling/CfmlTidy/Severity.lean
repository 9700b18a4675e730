import CfmlTidy.Text.Blank
import CfmlTidy.Text.Letter

/-!
# Severity

How serious a finding is, from information over warnings to errors.
-/

namespace CfmlTidy

/-- How serious a finding is. -/
inductive Severity where
  /-- Worth knowing. -/
  | info
  /-- Worth changing. -/
  | warning
  /-- Wrong. -/
  | error
deriving Repr, DecidableEq, Inhabited

namespace Severity

/-- The name used in every report. -/
def name : Severity → String
  | info => "info"
  | warning => "warning"
  | error => "error"

/-- Rank, from one for information to three for errors. -/
def level : Severity → Nat
  | info => 1
  | warning => 2
  | error => 3

/-- Whether a severity is at least another. -/
def atLeast (severity minimum : Severity) : Bool :=
  minimum.level ≤ severity.level

/-- The severity of a name; case and blanks around it do not count. -/
def ofName? (text : String) : Option Severity :=
  [("info", info), ("warning", warning), ("warn", warning), ("error", error)].lookup
    (Text.lowered (Text.trimmed text))

/-- What is said of a name that is no severity. -/
def unknownMessage (text : String) : String :=
  "Unknown severity: " ++ text

end Severity

end CfmlTidy
