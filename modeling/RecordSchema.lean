import RecordSchema.Classification
import RecordSchema.CommandLine.Argument
import RecordSchema.CommandLine.Entry
import RecordSchema.CommandLine.Misuse
import RecordSchema.CommandLine.Parse
import RecordSchema.CommandLine.Portion
import RecordSchema.CommandLine.Reference
import RecordSchema.CommandLine.Setting
import RecordSchema.CommandLine.Token
import RecordSchema.CommandLine.Usage
import RecordSchema.Conversion
import RecordSchema.ErrorObject
import RecordSchema.Failure
import RecordSchema.Files.Deflate
import RecordSchema.Files.Gzip
import RecordSchema.Files.Path
import RecordSchema.Files.Store
import RecordSchema.Json.Escape
import RecordSchema.Json.Numeral
import RecordSchema.Json.Reader
import RecordSchema.Main
import RecordSchema.Node
import RecordSchema.Node.CheckedMerge
import RecordSchema.Node.Equality
import RecordSchema.Node.Merge
import RecordSchema.Node.MergeDepth
import RecordSchema.Number.Decimal
import RecordSchema.Number.Double
import RecordSchema.Number.Rounding
import RecordSchema.Number.Shortest
import RecordSchema.Number.Typed
import RecordSchema.Program.Interface
import RecordSchema.Program.Request
import RecordSchema.Program.Run
import RecordSchema.Program.TemporaryFiles
import RecordSchema.Proofs.CommandLine.Keeping
import RecordSchema.Proofs.CommandLine.Settings
import RecordSchema.Proofs.Failures
import RecordSchema.Proofs.Files.Conversions
import RecordSchema.Proofs.Files.Frame
import RecordSchema.Proofs.Files.Hiding
import RecordSchema.Proofs.Files.Names
import RecordSchema.Proofs.Files.Writing
import RecordSchema.Proofs.Inference.Arrays
import RecordSchema.Proofs.Inference.Characterization
import RecordSchema.Proofs.Inference.Classified
import RecordSchema.Proofs.Inference.Coarsening
import RecordSchema.Proofs.Inference.Conformance
import RecordSchema.Proofs.Inference.Explanation
import RecordSchema.Proofs.Inference.Locations
import RecordSchema.Proofs.Inference.NanOrder
import RecordSchema.Proofs.Inference.NumericType
import RecordSchema.Proofs.Inference.Observation
import RecordSchema.Proofs.Inference.OrderIndependence
import RecordSchema.Proofs.Inference.Range
import RecordSchema.Proofs.Inference.RecordKinds
import RecordSchema.Proofs.Inference.Refusal
import RecordSchema.Proofs.Inference.Runs
import RecordSchema.Proofs.Inference.Values
import RecordSchema.Proofs.Json.Blank
import RecordSchema.Proofs.Json.Completeness
import RecordSchema.Proofs.Json.Grammar
import RecordSchema.Proofs.Json.Meaning
import RecordSchema.Proofs.Json.Number
import RecordSchema.Proofs.Json.NumberReading
import RecordSchema.Proofs.Json.Part
import RecordSchema.Proofs.Json.Reading
import RecordSchema.Proofs.Json.Soundness
import RecordSchema.Proofs.Json.StringForm
import RecordSchema.Proofs.Node.Algebra
import RecordSchema.Proofs.Node.Canonical
import RecordSchema.Proofs.Node.Collapse
import RecordSchema.Proofs.Node.Coverage
import RecordSchema.Proofs.Node.Descent
import RecordSchema.Proofs.Node.Family
import RecordSchema.Proofs.Node.Indistinguishable
import RecordSchema.Proofs.Node.Induction
import RecordSchema.Proofs.Node.Insertion
import RecordSchema.Proofs.Node.Labels
import RecordSchema.Proofs.Node.LeastCover
import RecordSchema.Proofs.Node.Partition
import RecordSchema.Proofs.Node.Parts
import RecordSchema.Proofs.Node.Plain
import RecordSchema.Proofs.Node.Positions
import RecordSchema.Proofs.Node.Preservation
import RecordSchema.Proofs.Node.Semilattice
import RecordSchema.Proofs.Node.Span
import RecordSchema.Proofs.Node.Totality
import RecordSchema.Proofs.Node.ZeroSigns
import RecordSchema.Proofs.Number.Place
import RecordSchema.Proofs.Program.Accepted
import RecordSchema.Proofs.Program.Destination
import RecordSchema.Proofs.Program.Output
import RecordSchema.Proofs.Program.TemporaryFiles
import RecordSchema.Proofs.Render.Congruence
import RecordSchema.Proofs.Render.Context
import RecordSchema.Proofs.Render.Layout
import RecordSchema.Proofs.Render.Leaves
import RecordSchema.Proofs.Render.Readability
import RecordSchema.Proofs.Render.ReportParts
import RecordSchema.Proofs.Render.Returns
import RecordSchema.Proofs.Render.Shapes
import RecordSchema.Proofs.Render.Skeleton
import RecordSchema.Proofs.Render.Widths
import RecordSchema.Proofs.Sorted
import RecordSchema.Proofs.Survey.Damaged
import RecordSchema.Proofs.Survey.Folded
import RecordSchema.Proofs.Survey.InOrder
import RecordSchema.Proofs.Survey.Jobs
import RecordSchema.Proofs.Survey.Joined
import RecordSchema.Proofs.Survey.Labels
import RecordSchema.Proofs.Survey.Sampling
import RecordSchema.Proofs.Survey.Stream
import RecordSchema.Proofs.Text.Returns
import RecordSchema.Proofs.Text.StringForms
import RecordSchema.Proofs.Text.Utf8
import RecordSchema.Proofs.Traversal
import RecordSchema.Records
import RecordSchema.Render.Listing
import RecordSchema.Render.Table
import RecordSchema.Render.TypeText
import RecordSchema.Report
import RecordSchema.ShapeSet
import RecordSchema.Sorting
import RecordSchema.Survey
import RecordSchema.Text.Blank
import RecordSchema.Text.Digit
import RecordSchema.Text.Hex
import RecordSchema.Text.Newline
import RecordSchema.Text.Printable
import RecordSchema.Text.Quoted
import RecordSchema.Text.Timestamp
import RecordSchema.Text.Utf8
import RecordSchema.Text.Whitespace
import RecordSchema.Value
