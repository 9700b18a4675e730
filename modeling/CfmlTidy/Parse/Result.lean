import CfmlTidy.Path
import CfmlTidy.Severity
import CfmlTidy.Text.Lines

/-!
# Parsed files

What reading a source file yields: issues, comments and whether the file is sound. A file that
cannot be read at all yields a parse error instead.
-/

namespace CfmlTidy

/-- A file that could not be interpreted. -/
structure ParseError where
  /-- The file as it was named in the run. -/
  file : String
  /-- Line, counted from one. -/
  line : Nat
  /-- Column, counted from one. -/
  column : Nat
  /-- What is wrong. -/
  reason : String
deriving Repr, DecidableEq

namespace ParseError

/-- A parse error at a place. A line or column of zero counts as one. -/
def located (file : String) (place : Text.Position) (reason : String) : ParseError :=
  ⟨file, max place.line 1, max place.column 1, reason⟩

/-- The error with its place. -/
def message (error : ParseError) : String :=
  error.reason ++ " at " ++ error.file ++ ":" ++ toString error.line ++ ":" ++
    toString error.column

end ParseError

/-- A problem found while reading a file. -/
structure Issue where
  /-- How serious it is. -/
  severity : Severity
  /-- Line, counted from one. -/
  line : Nat
  /-- Column, counted from one. -/
  column : Nat
  /-- What is wrong. -/
  message : String
  /-- The rule it belongs to, if any. -/
  rule : Option String
deriving Repr, DecidableEq

namespace Issue

/-- An issue at a place. A line or column of zero counts as one. -/
def located (severity : Severity) (place : Text.Position) (message : String)
    (rule : Option String) : Issue :=
  ⟨severity, max place.line 1, max place.column 1, message, rule⟩

/-- A syntax error at a place. -/
def syntaxError (place : Text.Position) (message : String) : Issue :=
  located .error place message (some "SYNTAX_ERROR")

/-- The issue with its place, as it is listed among errors. -/
def summary (issue : Issue) : String :=
  issue.message ++ " at line " ++ toString issue.line ++ ", column " ++ toString issue.column

end Issue

/-- The forms of comments. -/
inductive CommentKind where
  /-- Two slashes to the end of the line. -/
  | line
  /-- A slash and a star to a star and a slash. -/
  | block
  /-- A block comment that starts with two stars. -/
  | doc
  /-- A markup comment with two hyphens. -/
  | html
  /-- A markup comment with three hyphens. -/
  | tag
deriving Repr, DecidableEq

namespace CommentKind

/-- What a comment starts with. -/
def opening : CommentKind → List Char
  | line => ['/', '/']
  | block => ['/', '*']
  | doc => ['/', '*', '*']
  | html => ['<', '!', '-', '-']
  | tag => ['<', '!', '-', '-', '-']

/-- What a comment ends with; a line comment ends before the newline. -/
def closing : CommentKind → List Char
  | line => []
  | block => ['*', '/']
  | doc => ['*', '/']
  | html => ['-', '-', '>']
  | tag => ['-', '-', '-', '>']

end CommentKind

/-- A comment: its kind, its text without delimiters, and where it starts and ends. -/
structure Comment where
  /-- The form of the comment. -/
  kind : CommentKind
  /-- The text between the delimiters. -/
  text : List Char
  /-- Place of the first character. -/
  start : Text.Position
  /-- Place after the last character. -/
  stop : Text.Position
deriving Repr, DecidableEq

/-- What reading a file yields. -/
structure Parsed where
  /-- The path of the file. -/
  path : String
  /-- Its text. -/
  content : List Char
  /-- Whether no error was found. -/
  success : Bool
  /-- The errors with their places. -/
  errors : List String
  /-- All issues. -/
  issues : List Issue
  /-- The comments. -/
  comments : List Comment
deriving Repr, DecidableEq

namespace Parsed

/-- A file without issues and comments. -/
def ofContent (path : String) (content : List Char) (success : Bool) : Parsed :=
  ⟨path, content, success, [], [], []⟩

/-- Attach issues. Those that are errors are also listed as such and make the file unsound. -/
def withIssues (parsed : Parsed) (issues : List Issue) : Parsed :=
  let severe := issues.filter fun issue => issue.severity == .error
  { parsed with
    success := parsed.success && severe.isEmpty
    errors := parsed.errors ++ severe.map Issue.summary
    issues := parsed.issues ++ issues }

end Parsed

end CfmlTidy
