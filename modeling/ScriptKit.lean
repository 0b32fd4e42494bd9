import ScriptKit.Builtin
import ScriptKit.Check
import ScriptKit.Command.Flag
import ScriptKit.Command.Invocation
import ScriptKit.Command.Perform
import ScriptKit.Command.Verb
import ScriptKit.Decimal
import ScriptKit.Diagnostic
import ScriptKit.Disk
import ScriptKit.Eval
import ScriptKit.Interpolate
import ScriptKit.Json.Basic
import ScriptKit.Json.Read
import ScriptKit.Main
import ScriptKit.Path
import ScriptKit.Policy
import ScriptKit.Policy.Discover
import ScriptKit.Proofs.Check.Static
import ScriptKit.Proofs.Format.Lexeme
import ScriptKit.Proofs.Format.Meaning
import ScriptKit.Proofs.Format.Print
import ScriptKit.Proofs.Format.Reread
import ScriptKit.Proofs.Format.RoundTrip
import ScriptKit.Proofs.Format.Settled
import ScriptKit.Proofs.Format.Words
import ScriptKit.Proofs.Grammar
import ScriptKit.Proofs.Grammar.Complete
import ScriptKit.Proofs.Grammar.Known
import ScriptKit.Proofs.Grammar.Sound
import ScriptKit.Proofs.Grammar.Steps
import ScriptKit.Proofs.Run.Layout
import ScriptKit.Proofs.Run.Simulation
import ScriptKit.Proofs.Run.Triple
import ScriptKit.Proofs.Text.Bytes
import ScriptKit.Proofs.Text.Numeral
import ScriptKit.Proofs.Text.Quoted
import ScriptKit.Proofs.Token.Spelling
import ScriptKit.Proofs.Tree.Alike
import ScriptKit.Proofs.Tree.Core
import ScriptKit.Proofs.Tree.Formed
import ScriptKit.Proofs.Tree.Outline
import ScriptKit.Proofs.Tree.Walk
import ScriptKit.Scope
import ScriptKit.Scope.Forest
import ScriptKit.Session
import ScriptKit.Settings.Basic
import ScriptKit.Settings.Discover
import ScriptKit.Settings.Field
import ScriptKit.Settings.OfToml
import ScriptKit.Settings.OfYaml
import ScriptKit.Span
import ScriptKit.Table
import ScriptKit.Text.Base64
import ScriptKit.Text.Basic
import ScriptKit.Text.Blank
import ScriptKit.Text.Case
import ScriptKit.Text.Columns
import ScriptKit.Text.Letter
import ScriptKit.Text.Literal
import ScriptKit.Text.Numeral
import ScriptKit.Text.Printable
import ScriptKit.Text.Quoted
import ScriptKit.Text.Ranges
import ScriptKit.Token
import ScriptKit.Token.Scan
import ScriptKit.Toml
import ScriptKit.Trace.Event
import ScriptKit.Trace.Instant
import ScriptKit.Trace.Summary
import ScriptKit.Tree.Basic
import ScriptKit.Tree.Dump
import ScriptKit.Tree.Format
import ScriptKit.Tree.Parse
import ScriptKit.Tree.Shape
import ScriptKit.Tree.Walk
import ScriptKit.Value
import ScriptKit.World
import ScriptKit.Yaml.Cursor
import ScriptKit.Yaml.Meaning
import ScriptKit.Yaml.Scalar
import ScriptKit.Yaml.Token
import ScriptKit.Yaml.Tree
import ScriptKit.Proofs.Run.Beside
import ScriptKit.Proofs.Policy.Confinement
import ScriptKit.Proofs.Grammar.Placed
import ScriptKit.Proofs.Run.Ending
import ScriptKit.Proofs.Policy.Widening
import ScriptKit.Proofs.Run.Frames
import ScriptKit.Proofs.Check.Traced
import ScriptKit.Proofs.Check.Scopes
import ScriptKit.Proofs.Check.Alarms
import ScriptKit.Proofs.Grammar.Distinct
import ScriptKit.Proofs.Grammar.Linear
import ScriptKit.Proofs.Token.Lexical
import ScriptKit.Proofs.Token.Exact
import ScriptKit.Proofs.Run.Rules
import ScriptKit.Proofs.Run.Brackets
import ScriptKit.Proofs.Run.Local
import ScriptKit.Proofs.Run.Interruption
import ScriptKit.Proofs.Scope.Growth
import ScriptKit.Proofs.Run.Expressions
import ScriptKit.Proofs.Run.Growth
import ScriptKit.Proofs.Run.Script
import ScriptKit.Proofs.Run.Shadowing
import ScriptKit.Proofs.Run.Wording
import ScriptKit.Proofs.Run.Unreachable
import ScriptKit.Proofs.Run.Pairs
import ScriptKit.Proofs.Run.Unbounded
import ScriptKit.Proofs.Run.Termination
import ScriptKit.Proofs.Grammar.Rules
import ScriptKit.Proofs.Grammar.Faults
import ScriptKit.Proofs.Grammar.Expressions
import ScriptKit.Proofs.Grammar.Recorder
import ScriptKit.Proofs.Grammar.Mirror
import ScriptKit.Proofs.Grammar.Outcome
import ScriptKit.Proofs.Grammar.Layout
import ScriptKit.Proofs.Grammar.Spans
import ScriptKit.Proofs.Format.Parens
import ScriptKit.Proofs.Token.Comments
import ScriptKit.Proofs.Command.Rewrite
import ScriptKit.Proofs.Run.Values
import ScriptKit.Proofs.Run.Interpolation
import ScriptKit.Proofs.Tree.Legible
import ScriptKit.Proofs.Format.Skipped
import ScriptKit.Proofs.Format.Shape
import ScriptKit.Proofs.Text.Decimal
import ScriptKit.Proofs.Run.Lines
import ScriptKit.Proofs.Json.RoundTrip
import ScriptKit.Proofs.Run.Dump
import ScriptKit.Proofs.Trace.Lines
import ScriptKit.Proofs.Trace.Counts
import ScriptKit.Proofs.Run.Summaries
import ScriptKit.Proofs.Run.Rooms
import ScriptKit.Proofs.Settings.Discovery
import ScriptKit.Proofs.Token.Progress
import ScriptKit.Proofs.Grammar.Blocks
