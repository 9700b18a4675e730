import CfmlTidy.Problem
import CfmlTidy.Settings.Defaults

/-!
# Rule sets

A rule set is a named overlay on the settings: one of three built-in sets, or an entry of the
custom rules in the document.
-/

namespace CfmlTidy.Settings

/-- Names of the built-in rule sets. -/
def builtinRuleSets : List String := ["standard", "minimal", "strict"]

/-- Rules that the minimal rule set switches off. -/
def minimalDisabled : List String :=
  ["COMPONENT_NAMING", "FUNCTION_NAMING", "VARIABLE_NAMING", "CONSTANT_NAMING", "FILE_NAMING",
    "INTERFACE_PREFIX", "ABSTRACT_SUFFIX", "REQUIRE_CURLY_BRACES", "MAX_FUNCTION_LENGTH",
    "MAX_FILE_LENGTH", "REQUIRE_INIT", "REQUIRE_RETURN_TYPES", "REQUIRE_ARGUMENT_TYPES",
    "USE_ACCESSORS", "CURLY_BRACE_STYLE"]

/-- The overlay of a built-in rule set. -/
def builtinOverlay? (name : String) : Option Json :=
  [("standard", Json.obj []),
    ("minimal", .object [("linting", .object [("disabledRules", .strs minimalDisabled)])]),
    ("strict", .object [("linting", .object [("rules", .object [
      ("whitespace", .object [("maxEmptyLines", .int 1)]),
      ("codeStructure", .object [
        ("maxFunctionLength", .int 30),
        ("maxLineLength", .int 100),
        ("maxFileLength", .int 500)])])])])].lookup name

/-- What is said of a name that is no built-in rule set. -/
def unknownBuiltin (name : String) : Problem :=
  .settings ("Unknown rule set: '" ++ name ++ "'. Available rule sets: " ++
    Text.joinStrings ", " builtinRuleSets)

/-- What is said of a name that is neither a built-in nor a custom rule set. -/
def unknownRuleSet (name : String) : Problem :=
  .settings ("Unknown rule set: '" ++ name ++ "'. Available rule sets: " ++
    Text.joinStrings ", " builtinRuleSets ++ " or a customRules entry")

/-- The overlay of a built-in rule set, or the problem with its name. -/
def builtinOverlay (name : String) : Except Problem Json :=
  match builtinOverlay? name with
  | some overlay => .ok overlay
  | none => .error (unknownBuiltin name)

/-- The overlay of a rule set: built in, or the overrides of a custom entry. -/
def ruleSetOverlay (settings : Settings) (name : String) : Except Problem Json :=
  match builtinOverlay? name with
  | some overlay => .ok overlay
  | none =>
    match settings.get? ("customRules." ++ name) with
    | some (.obj fields) => .ok ((fields.lookup "overrides").getD (.obj []))
    | _ => .error (unknownRuleSet name)

/-- Activate a rule set: lay its overlay over the settings and record its name. -/
def withRuleSet (settings : Settings) (name : String) : Except Problem Settings := do
  let overlay ← settings.ruleSetOverlay name
  return (settings.withOverlay overlay).withOverlay
    (.obj [("linting", .obj [("ruleSet", .str name)])])

end CfmlTidy.Settings
