import CfmlTidy.Selection.Filter
import CfmlTidy.Workspace

/-!
# Selecting files

The files of a run: a file stands for itself, a directory for the files below it that a filter
selects, in the order of their paths.
-/

namespace CfmlTidy.Selection

/-- The cause when the root of a run does not exist. -/
def noRootText : String := "path does not exist"

/-- The selected files below a directory, in order. -/
def scan (workspace : Workspace) (filter : Filter) (root : String) : List String :=
  ((workspace.filesUnder root).filter (filter.selects workspace.workingDir)).mergeSort Path.le

/-- The files that a root and patterns select. Patterns are compiled before the root is looked
at, and a file is selected whatever the patterns say. -/
def select (workspace : Workspace) (root : String) (includes excludes : List String)
    (base : String) : Logged (Except Problem (List String)) :=
  match Filter.ofTexts includes excludes base with
  | .error problem => .quietly (.error problem)
  | .ok filter =>
    if !workspace.holds root then .quietly (.error (.unreadable root noRootText))
    else if workspace.isFile root then .quietly (.ok [root])
    else
      let files := scan workspace filter root
      .noting .info ("Found " ++ toString files.length ++ " files under " ++ root) (.ok files)

end CfmlTidy.Selection
