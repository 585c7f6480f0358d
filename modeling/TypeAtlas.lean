import TypeAtlas.Command.Arguments
import TypeAtlas.Command.Run
import TypeAtlas.Config.File
import TypeAtlas.Config.Json
import TypeAtlas.Config.Setting
import TypeAtlas.Config.Yaml
import TypeAtlas.Decimal.Binary
import TypeAtlas.Decimal.Notation
import TypeAtlas.Decimal.Shortest
import TypeAtlas.Diff.Change
import TypeAtlas.Diff.Compare
import TypeAtlas.Diff.Report
import TypeAtlas.Dump.EnumBody
import TypeAtlas.Dump.Field
import TypeAtlas.Dump.Header
import TypeAtlas.Dump.Index
import TypeAtlas.Dump.Nesting
import TypeAtlas.Event
import TypeAtlas.Files.Access
import TypeAtlas.Files.Path
import TypeAtlas.Files.Tree
import TypeAtlas.Json.Node
import TypeAtlas.Json.Numeral
import TypeAtlas.Json.Printer
import TypeAtlas.Json.Record
import TypeAtlas.Json.Sentence
import TypeAtlas.Json.Value
import TypeAtlas.Main
import TypeAtlas.NameMap
import TypeAtlas.Offset
import TypeAtlas.Record
import TypeAtlas.Rules
import TypeAtlas.Schema.Basic
import TypeAtlas.Schema.Classify
import TypeAtlas.Schema.File
import TypeAtlas.Schema.Hierarchy
import TypeAtlas.Schema.Json
import TypeAtlas.Schema.Report
import TypeAtlas.Schema.Survey
import TypeAtlas.Schema.Trace
import TypeAtlas.Sha256
import TypeAtlas.Text.Blank
import TypeAtlas.Text.Digits
import TypeAtlas.Text.Line
import TypeAtlas.Text.Read
import TypeAtlas.Text.Search
import TypeAtlas.Text.Utf8
import TypeAtlas.Text.Word
import TypeAtlas.Thresholds
import TypeAtlas.Validation.Check
import TypeAtlas.Validation.Defect
import TypeAtlas.Validation.Directory
import TypeAtlas.Validation.Instances
import TypeAtlas.Validation.Report
import TypeAtlas.Yaml.Element
import TypeAtlas.Yaml.Gap
import TypeAtlas.Yaml.Node
import TypeAtlas.Yaml.Plain
import TypeAtlas.Yaml.Quoted
import TypeAtlas.Yaml.Spot
import TypeAtlas.Yaml.Token
import TypeAtlas.Proofs.Files.Tree
import TypeAtlas.Proofs.NameMap
import TypeAtlas.Proofs.Text.Digits
import TypeAtlas.Proofs.Json.Grammar
import TypeAtlas.Proofs.Json.Printer
import TypeAtlas.Proofs.Json.Record
import TypeAtlas.Proofs.Schema.RoundTrip
import TypeAtlas.Proofs.Diff.Compare
import TypeAtlas.Proofs.Diff.Critical
import TypeAtlas.Proofs.Command.Diff
import TypeAtlas.Proofs.Dump.Index
import TypeAtlas.Proofs.Schema.Survey
import TypeAtlas.Proofs.Schema.Hierarchy
import TypeAtlas.Proofs.Schema.Flattening
import TypeAtlas.Proofs.Schema.Ancestry
import TypeAtlas.Proofs.Schema.Search
import TypeAtlas.Proofs.Schema.Embedding
import TypeAtlas.Proofs.Dump.Field
import TypeAtlas.Proofs.Schema.WellFormed
import TypeAtlas.Proofs.Text.Line
import TypeAtlas.Proofs.Dump.Header
import TypeAtlas.Proofs.Dump.Block
import TypeAtlas.Proofs.Schema.Order
import TypeAtlas.Proofs.Validation.Check
import TypeAtlas.Proofs.Validation.Defect
import TypeAtlas.Proofs.Validation.Verdict
import TypeAtlas.Proofs.Offset
import TypeAtlas.Proofs.Diff.Equivalence
import TypeAtlas.Proofs.Diff.Mirror
import TypeAtlas.Proofs.Diff.Interchange
import TypeAtlas.Proofs.Command.Moved
import TypeAtlas.Proofs.Schema.Congruence
import TypeAtlas.Proofs.Dump.Origin
import TypeAtlas.Proofs.Schema.Lines
import TypeAtlas.Proofs.Dump.FieldLine
import TypeAtlas.Proofs.Dump.EnumBody
import TypeAtlas.Proofs.Dump.Insertion
import TypeAtlas.Proofs.Schema.Insertion
import TypeAtlas.Proofs.Schema.CommentLine
import TypeAtlas.Proofs.Dump.LineEnding
import TypeAtlas.Proofs.Schema.LineEnding
import TypeAtlas.Proofs.Schema.BlockComment
import TypeAtlas.Proofs.Json.Members
import TypeAtlas.Proofs.Json.Form
import TypeAtlas.Proofs.Schema.Forward
import TypeAtlas.Proofs.Files.Change
import TypeAtlas.Proofs.Command.Effect
import TypeAtlas.Proofs.Dump.WrittenType
import TypeAtlas.Proofs.Schema.Closure
import TypeAtlas.Proofs.Dump.WrittenField
import TypeAtlas.Proofs.Dump.KeptFields
import TypeAtlas.Proofs.Dump.WrittenEnum
import TypeAtlas.Proofs.Schema.EnumValues
import TypeAtlas.Proofs.Schema.Lineage
import TypeAtlas.Proofs.Schema.ClassWalk
import TypeAtlas.Proofs.Schema.Shadowing
import TypeAtlas.Proofs.Diff.Group
import TypeAtlas.Proofs.Diff.TemplateReport
import TypeAtlas.Proofs.Diff.EnumReport
import TypeAtlas.Proofs.Validation.Shape
import TypeAtlas.Proofs.Validation.TypeReport
import TypeAtlas.Proofs.Validation.RealData
import TypeAtlas.Proofs.Validation.FieldReport
import TypeAtlas.Proofs.Text.ByteOffset
import TypeAtlas.Proofs.Dump.Piece
import TypeAtlas.Proofs.Dump.Matching
import TypeAtlas.Proofs.Dump.Usable
import TypeAtlas.Proofs.Dump.LineDepth
import TypeAtlas.Proofs.Dump.Register
import TypeAtlas.Proofs.Dump.Terminated
import TypeAtlas.Proofs.Schema.CollectionType
import TypeAtlas.Proofs.Text.Decoding
import TypeAtlas.Proofs.Schema.Bytes
import TypeAtlas.Proofs.Config.Given
import TypeAtlas.Proofs.Dump.Literal
import TypeAtlas.Proofs.Offset.Written
import TypeAtlas.Proofs.Text.BytePlace
import TypeAtlas.Proofs.Dump.Jump
import TypeAtlas.Proofs.Dump.Scanner
import TypeAtlas.Proofs.Dump.Faultless
