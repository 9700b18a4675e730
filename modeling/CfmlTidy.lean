import CfmlTidy.Command.Execute
import CfmlTidy.Command.Invocation
import CfmlTidy.Command.Line
import CfmlTidy.Command.Option
import CfmlTidy.Command.Session
import CfmlTidy.Command.Shell
import CfmlTidy.Decimal.Shortest
import CfmlTidy.Encoding.Basic
import CfmlTidy.Encoding.Detection
import CfmlTidy.Encoding.SingleByte
import CfmlTidy.Encoding.Utf8
import CfmlTidy.Encoding.Wide
import CfmlTidy.Json.Basic
import CfmlTidy.Json.Number
import CfmlTidy.Json.Reader
import CfmlTidy.Json.Writer
import CfmlTidy.Launcher
import CfmlTidy.Layout
import CfmlTidy.Log
import CfmlTidy.Main
import CfmlTidy.Parse.Backend
import CfmlTidy.Parse.Engine
import CfmlTidy.Parse.Lexeme
import CfmlTidy.Parse.Result
import CfmlTidy.Parse.Structural
import CfmlTidy.Path
import CfmlTidy.Problem
import CfmlTidy.Proofs.Encoding.Exact
import CfmlTidy.Proofs.Encoding.Utf8
import CfmlTidy.Report.Basic
import CfmlTidy.Report.Csv
import CfmlTidy.Report.Render
import CfmlTidy.Report.Sarif
import CfmlTidy.Report.Text
import CfmlTidy.Result.Run
import CfmlTidy.Result.Stats
import CfmlTidy.Rule.Basic
import CfmlTidy.Rule.Case
import CfmlTidy.Rule.FileName
import CfmlTidy.Rule.Naming
import CfmlTidy.Rule.Registry
import CfmlTidy.Rule.Signature
import CfmlTidy.Rule.Structure
import CfmlTidy.Rule.Whitespace
import CfmlTidy.Run.Coordinator
import CfmlTidy.Run.Format
import CfmlTidy.Run.Input
import CfmlTidy.Run.Lint
import CfmlTidy.Run.Options
import CfmlTidy.Selection.Filter
import CfmlTidy.Selection.Glob
import CfmlTidy.Selection.Scan
import CfmlTidy.Settings.Basic
import CfmlTidy.Settings.Defaults
import CfmlTidy.Settings.Document
import CfmlTidy.Settings.Loader
import CfmlTidy.Settings.RuleSet
import CfmlTidy.Settings.Validation
import CfmlTidy.Severity
import CfmlTidy.Source.Bracket
import CfmlTidy.Source.Function
import CfmlTidy.Source.Mask
import CfmlTidy.Text.Blank
import CfmlTidy.Text.Class
import CfmlTidy.Text.Letter
import CfmlTidy.Text.Lines
import CfmlTidy.Text.Pattern
import CfmlTidy.Toml.Moment
import CfmlTidy.Toml.Reader
import CfmlTidy.Toml.Scalar
import CfmlTidy.Toml.Table
import CfmlTidy.Violation
import CfmlTidy.Workspace
import CfmlTidy.Proofs.Encoding.RoundTrip
import CfmlTidy.Proofs.Encoding.Detection
import CfmlTidy.Proofs.Encoding.Reproduction
import CfmlTidy.Proofs.Layout.Settled
import CfmlTidy.Proofs.Layout.Content
import CfmlTidy.Proofs.Layout.FixedPoint
import CfmlTidy.Proofs.Layout.Kept
import CfmlTidy.Proofs.Encoding.Rewriting
import CfmlTidy.Proofs.Workspace
import CfmlTidy.Proofs.Run.Format
import CfmlTidy.Proofs.Run.Stability
import CfmlTidy.Proofs.Run.DryRun
import CfmlTidy.Proofs.Source.Nesting
import CfmlTidy.Proofs.Parse.Token
import CfmlTidy.Proofs.Parse.Grammar
import CfmlTidy.Proofs.Parse.Masking
import CfmlTidy.Proofs.Json.Field
import CfmlTidy.Proofs.Result.Totals
import CfmlTidy.Proofs.Run.Coordinator
import CfmlTidy.Proofs.Run.Frame
import CfmlTidy.Proofs.Result.Counted
import CfmlTidy.Proofs.Result.Merge
import CfmlTidy.Proofs.Result.Filter
import CfmlTidy.Proofs.Command.ExitCode
import CfmlTidy.Proofs.Run.Accounting
import CfmlTidy.Proofs.Run.Reported
import CfmlTidy.Proofs.Text.Pattern
import CfmlTidy.Proofs.Parse.Fault
import CfmlTidy.Proofs.Parse.Issue
import CfmlTidy.Proofs.Source.Mask
import CfmlTidy.Proofs.Encoding.Ascii
import CfmlTidy.Proofs.Source.Bytes
import CfmlTidy.Proofs.Source.Function
import CfmlTidy.Proofs.Snippet
import CfmlTidy.Proofs.Rule.Finding
import CfmlTidy.Proofs.Rule.Place
import CfmlTidy.Proofs.Run.SyntaxError
import CfmlTidy.Proofs.Path.Resolution
import CfmlTidy.Proofs.Path.Relative
import CfmlTidy.Proofs.Rule.Selection
import CfmlTidy.Proofs.Selection.Pattern
import CfmlTidy.Proofs.Selection.Spelling
import CfmlTidy.Proofs.Settings.Layering
import CfmlTidy.Proofs.Json.Number
import CfmlTidy.Proofs.Json.RoundTrip
import CfmlTidy.Proofs.Settings.Export
import CfmlTidy.Proofs.Settings.Lookup
import CfmlTidy.Proofs.Settings.RuleSet
import CfmlTidy.Proofs.Settings.Acceptance
import CfmlTidy.Proofs.Run.Validated
import CfmlTidy.Proofs.Command.Fatal
import CfmlTidy.Proofs.Rule.Whitespace
import CfmlTidy.Proofs.Source.Bare
import CfmlTidy.Proofs.Source.Line
import CfmlTidy.Proofs.Text.Place
import CfmlTidy.Proofs.Parse.Extent
import CfmlTidy.Proofs.Parse.Comment
import CfmlTidy.Proofs.Encoding.Marked
import CfmlTidy.Proofs.Rule.BlankRun
import CfmlTidy.Proofs.Text.Match
import CfmlTidy.Proofs.Source.Bracket
import CfmlTidy.Proofs.Source.Region
import CfmlTidy.Proofs.Source.Declaration
import CfmlTidy.Proofs.Rule.FunctionLength
import CfmlTidy.Proofs.Encoding.Probing
import CfmlTidy.Proofs.Report.Csv
import CfmlTidy.Proofs.Report.Occurrence
import CfmlTidy.Proofs.Report.Sarif
import CfmlTidy.Proofs.Report.Text
import CfmlTidy.Proofs.Text.Offset
import CfmlTidy.Proofs.Text.Lowered
import CfmlTidy.Proofs.Source.Closing
import CfmlTidy.Proofs.Parse.Walk
import CfmlTidy.Proofs.Parse.Turn
import CfmlTidy.Proofs.Parse.Totality
