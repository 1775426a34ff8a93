import Motion.Command.Arguments
import Motion.Command.Run
import Motion.Compile.Basic
import Motion.Compile.Globals
import Motion.Compile.Targets
import Motion.Decode
import Motion.Encoder
import Motion.FileSystem.Basic
import Motion.FileSystem.Path
import Motion.FileSystem.Tree
import Motion.Formula.Error
import Motion.Formula.Evaluate
import Motion.Formula.Expr
import Motion.Formula.Lexer
import Motion.Formula.Parser
import Motion.Formula.Token
import Motion.Hash.Xxh3
import Motion.Issue
import Motion.Json.Batch
import Motion.Json.Numeral
import Motion.Json.Reader
import Motion.Json.Record
import Motion.Json.Skip
import Motion.Json.Value
import Motion.Json.Writer
import Motion.Main
import Motion.Number.Binary
import Motion.Number.Numeral
import Motion.Number.Shortest
import Motion.Number.Style
import Motion.Param.Document
import Motion.Param.Map
import Motion.Param.Value
import Motion.Part.Basic
import Motion.Part.Category
import Motion.Part.Skeleton
import Motion.Pattern.Alternatives
import Motion.Pattern.Match
import Motion.Primitive
import Motion.Program.Basic
import Motion.Program.Buffer
import Motion.Program.Document
import Motion.Program.Fingerprint
import Motion.Table
import Motion.Template.Basic
import Motion.Template.Check
import Motion.Template.Document
import Motion.Template.Library
import Motion.Text.Blank
import Motion.Text.CaseTable
import Motion.Text.CasedTable
import Motion.Text.EscapeTable
import Motion.Text.Fold
import Motion.Text.Lowercase
import Motion.Text.Quoted
import Motion.Proofs.Encoder.Playback
import Motion.Proofs.Compile.Steps
import Motion.Proofs.Pattern.Wildcard
import Motion.Proofs.Template.Soundness
import Motion.Proofs.Compile.Slots
import Motion.Proofs.Formula.Evaluation
import Motion.Proofs.Template.History
import Motion.Proofs.Compile.Motions
import Motion.Proofs.Number.Value
import Motion.Proofs.Number.Arithmetic
import Motion.Proofs.Number.Monotone
import Motion.Proofs.Encoder.ClockTime
import Motion.Proofs.Record
import Motion.Proofs.Program.SlotTable
import Motion.Proofs.Pattern.Alternatives
import Motion.Proofs.Text.Fold
import Motion.Proofs.Pattern.Reference
import Motion.Proofs.Number.Finite
import Motion.Proofs.Number.Widening
import Motion.Proofs.Json.Range
import Motion.Proofs.Json.Batch
import Motion.Proofs.Template.Batch
import Motion.Proofs.Program.Layout
import Motion.Proofs.Compile.Failures
import Motion.Proofs.Document
import Motion.Proofs.Param.Document
import Motion.Proofs.Template.Document
import Motion.Proofs.Program.Document
import Motion.Proofs.Number.Numeral
import Motion.Proofs.Number.Reading
import Motion.Proofs.Formula.Failures
import Motion.Proofs.Formula.Places
import Motion.Proofs.Formula.Delimiters
import Motion.Proofs.Param.Text
import Motion.Proofs.Param.Leaves
import Motion.Proofs.Compile.Params
import Motion.Proofs.Number.Longest
import Motion.Proofs.Formula.Lexemes
import Motion.Proofs.Formula.Spans
import Motion.Proofs.Formula.Locations
import Motion.Proofs.Pattern.Words
import Motion.Proofs.Template.Collisions
import Motion.Proofs.Number.Narrowing
import Motion.Proofs.Encoder.Progress
import Motion.Proofs.Compile.Durations
import Motion.Proofs.Compile.Adverbs
import Motion.Proofs.Param.Map
import Motion.Proofs.Part.Check
import Motion.Proofs.Text.AsciiCase
import Motion.Proofs.Part.Category
import Motion.Proofs.Formula.Height
import Motion.Proofs.Formula.Counting
import Motion.Proofs.Formula.Nesting
