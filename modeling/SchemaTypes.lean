import SchemaTypes.Unicode.Alphabetic
import SchemaTypes.Unicode.Numeric
import SchemaTypes.Unicode.Visible
import SchemaTypes.Unicode.Blank
import SchemaTypes.Decimal.Format
import SchemaTypes.Text.Lines
import SchemaTypes.Text.Position
import SchemaTypes.Json.Value
import SchemaTypes.Json.Fault
import SchemaTypes.Entries
import SchemaTypes.Json.Read
import SchemaTypes.Schema.Primitive
import SchemaTypes.Schema.Forms
import SchemaTypes.Schema.Parts
import SchemaTypes.Schema.Document
import SchemaTypes.TypeScript.SourceFile
import SchemaTypes.TypeScript.TypeExpr
import SchemaTypes.Emission.Run
import SchemaTypes.Check.Report
import SchemaTypes.Toml.Document
import SchemaTypes.Settings
import SchemaTypes.Failure
import SchemaTypes.Files.Tree
import SchemaTypes.Files.Content
import SchemaTypes.CommandLine.Run
import SchemaTypes.Main
import SchemaTypes.Proofs.Schema.Children
import SchemaTypes.Proofs.Emission.Requests
import SchemaTypes.Proofs.Emission.Effect
import SchemaTypes.Proofs.Emission.Run
import SchemaTypes.Proofs.Emission.Reference
import SchemaTypes.Proofs.Schema.Ingestion
import SchemaTypes.Proofs.Emission.ClauseOrder
import SchemaTypes.Proofs.Text.Lines
import SchemaTypes.Proofs.Json.Literal
import SchemaTypes.Proofs.Decimal.Format
import SchemaTypes.Proofs.Code.Layout
import SchemaTypes.Proofs.Code.CodeLines
import SchemaTypes.Proofs.TypeScript.Rows
import SchemaTypes.Proofs.TypeScript.Naming
import SchemaTypes.Proofs.TypeScript.Outline
import SchemaTypes.Proofs.TypeScript.Readable
import SchemaTypes.Proofs.Emission.Calls
import SchemaTypes.Proofs.Schema.Selection
import SchemaTypes.Proofs.Schema.Rewriting
import SchemaTypes.Proofs.Emission.Selection
import SchemaTypes.Proofs.Emission.Declared
import SchemaTypes.Proofs.Emission.Rewriting
import SchemaTypes.Proofs.Code.Comments
import SchemaTypes.Proofs.Code.CommentLayout
import SchemaTypes.Proofs.Json.Content
import SchemaTypes.Proofs.Json.Grammatical
import SchemaTypes.Proofs.Json.Fields
import SchemaTypes.Proofs.Json.Apart
import SchemaTypes.Proofs.Schema.Contents
import SchemaTypes.Proofs.Schema.HeldValues
import SchemaTypes.Proofs.Schema.Places
import SchemaTypes.Proofs.Schema.Shown
import SchemaTypes.Proofs.Schema.FieldOrder
import SchemaTypes.Proofs.Schema.OpenEntries
import SchemaTypes.Proofs.Json.Protected
import SchemaTypes.Proofs.Json.Pretty
import SchemaTypes.Proofs.Emission.FencedExamples
import SchemaTypes.Proofs.TypeScript.Documentation
import SchemaTypes.Proofs.Emission.Documentation
import SchemaTypes.Proofs.Json.Record
import SchemaTypes.Proofs.Schema.Distinct
import SchemaTypes.Proofs.Check.Counts
import SchemaTypes.Proofs.Emission.Members
import SchemaTypes.Proofs.Emission.Layouts
import SchemaTypes.Proofs.Schema.Reachable
import SchemaTypes.Proofs.TypeScript.Header
import SchemaTypes.Proofs.Toml.Distinct
import SchemaTypes.Proofs.Settings.Layers
import SchemaTypes.Proofs.CommandLine.Choices
import SchemaTypes.Proofs.CommandLine.Generation
import SchemaTypes.Proofs.Decimal.ReadsBack
import SchemaTypes.Proofs.Decimal.Denoted
import SchemaTypes.Proofs.Schema.Keys
import SchemaTypes.Proofs.TypeScript.Alike
import SchemaTypes.Proofs.Emission.Repeats
import SchemaTypes.Proofs.TypeScript.LatinNames
import SchemaTypes.Proofs.Emission.HoistedNames
import SchemaTypes.Proofs.Emission.Uses
import SchemaTypes.Proofs.Emission.ShortComposition
import SchemaTypes.Proofs.Text.Labels
import SchemaTypes.Proofs.TypeScript.Spellings
import SchemaTypes.Proofs.TypeScript.Types
import SchemaTypes.Proofs.TypeScript.Building
import SchemaTypes.Proofs.Code.Nesting
import SchemaTypes.Proofs.Files.Directories
