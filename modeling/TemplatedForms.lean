import TemplatedForms.CommandLine.Command
import TemplatedForms.CommandLine.Help
import TemplatedForms.CommandLine.Run
import TemplatedForms.Entries
import TemplatedForms.Evaluate
import TemplatedForms.Evaluation.Error
import TemplatedForms.Evaluation.Globals
import TemplatedForms.Evaluation.Interpreter
import TemplatedForms.Evaluation.ListMethods
import TemplatedForms.Evaluation.NumberMethods
import TemplatedForms.Evaluation.Operators
import TemplatedForms.Evaluation.Routine
import TemplatedForms.Evaluation.TextMethods
import TemplatedForms.Expression.Basic
import TemplatedForms.Expression.Parse
import TemplatedForms.Expression.ParseError
import TemplatedForms.Expression.Token
import TemplatedForms.Expression.Tokenize
import TemplatedForms.Form.Basic
import TemplatedForms.Form.Editor
import TemplatedForms.Form.Json
import TemplatedForms.Form.References
import TemplatedForms.Form.Rendering
import TemplatedForms.Form.Session
import TemplatedForms.Form.Validation
import TemplatedForms.Json.Basic
import TemplatedForms.Json.Printer
import TemplatedForms.Json.Reader
import TemplatedForms.Json.Record
import TemplatedForms.Main
import TemplatedForms.Notice
import TemplatedForms.Number.Binary
import TemplatedForms.Number.Decimal
import TemplatedForms.Number.Layout
import TemplatedForms.Number.Radix
import TemplatedForms.Number.Shortest
import TemplatedForms.Number.Whole
import TemplatedForms.Reference
import TemplatedForms.Resolution
import TemplatedForms.Settings
import TemplatedForms.Store.Basic
import TemplatedForms.Store.FileTree
import TemplatedForms.Store.FrontMatter
import TemplatedForms.Store.Memory
import TemplatedForms.Store.Vault
import TemplatedForms.Template
import TemplatedForms.Text.Alphabetic
import TemplatedForms.Text.Blank
import TemplatedForms.Text.Casing
import TemplatedForms.Text.CodePoint
import TemplatedForms.Text.Plain
import TemplatedForms.Text.Quoted
import TemplatedForms.Text.Ranges
import TemplatedForms.Text.Search
import TemplatedForms.Value.Basic
import TemplatedForms.Value.Equality
import TemplatedForms.Value.Json
import TemplatedForms.Yaml.Cursor
import TemplatedForms.Yaml.Data
import TemplatedForms.Yaml.Gap
import TemplatedForms.Yaml.Layout
import TemplatedForms.Yaml.Node
import TemplatedForms.Yaml.Scalar
import TemplatedForms.Yaml.Token
import TemplatedForms.Proofs.Form.Editing
import TemplatedForms.Proofs.Expression.Grammar
import TemplatedForms.Proofs.Expression.Lookahead
import TemplatedForms.Proofs.Expression.Completeness
import TemplatedForms.Proofs.Expression.Exactness
import TemplatedForms.Proofs.Expression.Lexing
import TemplatedForms.Proofs.Reference
import TemplatedForms.Proofs.Resolution.Documents
import TemplatedForms.Proofs.Resolution.Fields
import TemplatedForms.Proofs.Entries
import TemplatedForms.Proofs.Evaluation.Steps
import TemplatedForms.Proofs.Evaluation.Methods
import TemplatedForms.Proofs.Evaluation.FreeNames
import TemplatedForms.Proofs.Evaluation.StepLimit
import TemplatedForms.Proofs.Form.References
import TemplatedForms.Proofs.Form.Validation
import TemplatedForms.Proofs.Number.Numeral
import TemplatedForms.Proofs.Number.Layout
import TemplatedForms.Proofs.Number.Double
import TemplatedForms.Proofs.Number.Rounding
import TemplatedForms.Proofs.Number.Shortest
import TemplatedForms.Proofs.Number.Reading
import TemplatedForms.Proofs.Json.Number
import TemplatedForms.Proofs.Json.Expression
import TemplatedForms.Proofs.Json.Lexing
import TemplatedForms.Proofs.Json.Execution
import TemplatedForms.Proofs.Number.Radix
import TemplatedForms.Proofs.Settings.Operation
import TemplatedForms.Proofs.Json.Reading
import TemplatedForms.Proofs.Json.Record
import TemplatedForms.Proofs.Form.Json
import TemplatedForms.Proofs.Settings.Storage
import TemplatedForms.Proofs.Expression.Height
import TemplatedForms.Proofs.Evaluation.Bounded
import TemplatedForms.Proofs.Evaluation.StringLimit
import TemplatedForms.Proofs.Evaluation.History
import TemplatedForms.Proofs.Store.FileTree
import TemplatedForms.Proofs.CommandLine.Edit
import TemplatedForms.Proofs.Store.Memory
import TemplatedForms.Proofs.Store.Insertion
import TemplatedForms.Proofs.Json.Delimiting
import TemplatedForms.Proofs.Resolution.WholeReference
import TemplatedForms.Proofs.Store.Listing
import TemplatedForms.Proofs.Form.Cycles
import TemplatedForms.Proofs.Form.Problems
import TemplatedForms.Proofs.Form.Independence
import TemplatedForms.Proofs.Reference.Markers
import TemplatedForms.Proofs.Resolution.Replacement
import TemplatedForms.Proofs.Reference.Occurrences
import TemplatedForms.Proofs.Resolution.Places
import TemplatedForms.Proofs.Text.CodePoint
import TemplatedForms.Proofs.Expression.Spelling
import TemplatedForms.Proofs.Expression.Literals
import TemplatedForms.Proofs.Expression.Tiling
import TemplatedForms.Proofs.Evaluation.Scoping
import TemplatedForms.Proofs.Number.Equality
import TemplatedForms.Proofs.Value.Equality
import TemplatedForms.Proofs.Evaluation.Searches
import TemplatedForms.Proofs.Value.Order
import TemplatedForms.Proofs.Evaluation.Sorting
import TemplatedForms.Proofs.Evaluation.Comparisons
import TemplatedForms.Proofs.Number.Integer
import TemplatedForms.Proofs.Value.Json
import TemplatedForms.Proofs.Evaluation.RadixText
import TemplatedForms.Proofs.Evaluation.Positions
import TemplatedForms.Proofs.Evaluation.Splitting
import TemplatedForms.Proofs.Expression.Unreadable
import TemplatedForms.Proofs.Expression.Faults
import TemplatedForms.Proofs.Template
import TemplatedForms.Proofs.Reference.ClassName
import TemplatedForms.Proofs.Form.Entry
import TemplatedForms.Proofs.Resolution.SingleReference
import TemplatedForms.Proofs.Form.Collecting
import TemplatedForms.Proofs.Evaluate
import TemplatedForms.Proofs.Settings.FreeIdentifier
import TemplatedForms.Proofs.Evaluation.Flattening
