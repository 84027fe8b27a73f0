import TuneGraph.Number.Binary64
import TuneGraph.Number.Shortest
import TuneGraph.Number.Approximation
import TuneGraph.Text.Blank
import TuneGraph.Text.Digit
import TuneGraph.Text.Surrogate
import TuneGraph.Text.CaseTable
import TuneGraph.Text.Case
import TuneGraph.Text.PrintableTable
import TuneGraph.Text.Quoted
import TuneGraph.Number.Numeral
import TuneGraph.Document.Basic
import TuneGraph.Document.Display
import TuneGraph.Document.Json.Printer
import TuneGraph.Document.Json.Parser
import TuneGraph.Score.Basic
import TuneGraph.Score.Encoding
import TuneGraph.Schema.Basic
import TuneGraph.Schema.Scalar
import TuneGraph.Schema.Score
import TuneGraph.Score.Reading
import TuneGraph.Score.Writing
import TuneGraph.Text.FieldFormat
import TuneGraph.Text.Template
import TuneGraph.Report
import TuneGraph.Graph.Kind
import TuneGraph.Graph.Basic
import TuneGraph.Graph.Document
import TuneGraph.Graph.Summary
import TuneGraph.Graph.Check
import TuneGraph.Compile.Marker
import TuneGraph.Compile.Settings
import TuneGraph.Compile.Nodes
import TuneGraph.Compile.Line
import TuneGraph.Compile.Error
import TuneGraph.Compile.Counter
import TuneGraph.Compile.Staff
import TuneGraph.Compile.Repeat
import TuneGraph.Compile.Tune
import TuneGraph.Score.Review
import TuneGraph.Host.Block
import TuneGraph.Host.Memory
import TuneGraph.Compile.Install
import TuneGraph.Document.Yaml.Fault
import TuneGraph.Document.Yaml.Cursor
import TuneGraph.Library.Time
import TuneGraph.Document.Yaml.Timestamp
import TuneGraph.Document.Yaml.Scalar
import TuneGraph.Document.Yaml.Quote
import TuneGraph.Document.Yaml.Token
import TuneGraph.Document.Yaml.Node
import TuneGraph.Library.Files
import TuneGraph.Library.Setup
import TuneGraph.Document.Yaml.Reader
import TuneGraph.Library.Basic
import TuneGraph.Library.Store
import TuneGraph.Library.Project
import TuneGraph.Library.Tool
import TuneGraph.Library.Call
import TuneGraph.Options
import TuneGraph.Main
import TuneGraph.Proofs.Except
import TuneGraph.Proofs.Text.Normal
import TuneGraph.Proofs.Document.Basic
import TuneGraph.Proofs.Document.Display
import TuneGraph.Proofs.Graph.Link
import TuneGraph.Proofs.Graph.Reciprocal
import TuneGraph.Proofs.Graph.Interlinked
import TuneGraph.Proofs.Graph.Chain
import TuneGraph.Proofs.Graph.Verdict
import TuneGraph.Proofs.Graph.Walk
import TuneGraph.Proofs.Graph.Still
import TuneGraph.Proofs.Graph.Sung
import TuneGraph.Proofs.Compile.Marker
import TuneGraph.Proofs.Graph.Play
import TuneGraph.Proofs.Compile.Line
import TuneGraph.Proofs.Compile.Staff
import TuneGraph.Proofs.Compile.Ranges
import TuneGraph.Proofs.Compile.Chain
import TuneGraph.Proofs.Compile.Enter
import TuneGraph.Proofs.Compile.Leave
import TuneGraph.Proofs.Compile.Splice
import TuneGraph.Proofs.Compile.Resolve
import TuneGraph.Proofs.Compile.Forest
import TuneGraph.Proofs.Compile.Unroll
import TuneGraph.Proofs.Compile.Tune
import TuneGraph.Proofs.Compile.Assemble
import TuneGraph.Proofs.Compile.Staves
import TuneGraph.Proofs.Compile.PlayOrder
import TuneGraph.Proofs.Compile.Transcript
import TuneGraph.Proofs.Graph.Parallel
import TuneGraph.Proofs.Compile.Parallel
import TuneGraph.Proofs.Compile.Shift
import TuneGraph.Proofs.Compile.Independence
import TuneGraph.Proofs.Score.Parts
import TuneGraph.Proofs.Compile.Emission
import TuneGraph.Proofs.Compile.Accounts
import TuneGraph.Proofs.Text.Digits
import TuneGraph.Proofs.Score.Review
import TuneGraph.Proofs.Score.Readable
import TuneGraph.Proofs.Score.RoundTrip
import TuneGraph.Proofs.Library.Files
import TuneGraph.Proofs.Library.Storage
import TuneGraph.Proofs.Document.Parsed
import TuneGraph.Proofs.Document.Grammar
import TuneGraph.Proofs.Document.Notation
import TuneGraph.Proofs.Document.Written
import TuneGraph.Proofs.Document.Pieces
import TuneGraph.Proofs.Library.Frame
import TuneGraph.Proofs.Library.Session
import TuneGraph.Proofs.Library.Inline
import TuneGraph.Proofs.Compile.Skeleton
import TuneGraph.Proofs.Compile.Naming
import TuneGraph.Proofs.Library.Query
import TuneGraph.Proofs.Library.Names
import TuneGraph.Proofs.Library.Listing
import TuneGraph.Proofs.Library.Import
import TuneGraph.Proofs.Library.Ownership
import TuneGraph.Proofs.Library.Deletion
import TuneGraph.Proofs.Library.Failure
import TuneGraph.Proofs.Compile.Payloads
import TuneGraph.Proofs.Library.Texts
import TuneGraph.Proofs.Number.Nearest
import TuneGraph.Proofs.Score.Length
import TuneGraph.Proofs.Score.Stopping
import TuneGraph.Proofs.Library.Omission
import TuneGraph.Proofs.Host.Memory
import TuneGraph.Proofs.Host.Installation
import TuneGraph.Proofs.Score.PlainBars
import TuneGraph.Proofs.Score.Bookkeeping
import TuneGraph.Proofs.Compile.Fractions
