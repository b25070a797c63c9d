import GraphFilter.Cypher.Name
import GraphFilter.Decimal.Binary64
import GraphFilter.Decimal.Literal
import GraphFilter.Decimal.Shortest
import GraphFilter.Files.Entry
import GraphFilter.Files.Path
import GraphFilter.Files.Tree
import GraphFilter.Filter.Basic
import GraphFilter.Filter.Compile
import GraphFilter.Filter.Decode
import GraphFilter.Filter.Error
import GraphFilter.Filter.Order
import GraphFilter.Json.Cursor
import GraphFilter.Json.Error
import GraphFilter.Json.Fields
import GraphFilter.Json.Numbers
import GraphFilter.Json.Pretty
import GraphFilter.Json.Printer
import GraphFilter.Json.Reader
import GraphFilter.Json.Records
import GraphFilter.Json.Skipper
import GraphFilter.Json.Strings
import GraphFilter.Json.Value
import GraphFilter.Param.Bindings
import GraphFilter.Param.Value
import GraphFilter.Placeholder
import GraphFilter.Program.Command
import GraphFilter.Program.CommandLine
import GraphFilter.Program.Environment
import GraphFilter.Program.EnvironmentFile
import GraphFilter.Program.Error
import GraphFilter.Program.Run
import GraphFilter.Query
import GraphFilter.Settings.File
import GraphFilter.Settings.Layer
import GraphFilter.Settings.Load
import GraphFilter.Text.Alphabetic
import GraphFilter.Text.Blank
import GraphFilter.Text.Numeral
import GraphFilter.Text.Quoted
import GraphFilter.Text.Ranges
import GraphFilter.Text.Uppercase
import GraphFilter.Where.Comparison
import GraphFilter.Where.Compile
import GraphFilter.Where.Decode
import GraphFilter.Where.Expression
import GraphFilter.Where.Operator
import GraphFilter.Where.Predicate
import GraphFilter.Where.Tree
import GraphFilter.Proofs.Cypher.Condition
import GraphFilter.Proofs.Cypher.Crowded
import GraphFilter.Proofs.Cypher.Derivation
import GraphFilter.Proofs.Cypher.Grouping
import GraphFilter.Proofs.Cypher.Name
import GraphFilter.Proofs.Cypher.Part
import GraphFilter.Proofs.Cypher.SameText
import GraphFilter.Proofs.Cypher.Spliced
import GraphFilter.Proofs.Cypher.Token
import GraphFilter.Proofs.Cypher.Truth
import GraphFilter.Proofs.Cypher.Written
import GraphFilter.Proofs.Decimal.Numeral
import GraphFilter.Proofs.Decimal.Rounding
import GraphFilter.Proofs.Decimal.Written
import GraphFilter.Proofs.Files.Home
import GraphFilter.Proofs.Filter.Compiled
import GraphFilter.Proofs.Filter.Ordered
import GraphFilter.Proofs.Filter.Placed
import GraphFilter.Proofs.Filter.Pruned
import GraphFilter.Proofs.Filter.Read
import GraphFilter.Proofs.Filter.Strict
import GraphFilter.Proofs.Json.Arrays
import GraphFilter.Proofs.Json.Integers
import GraphFilter.Proofs.Json.Keys
import GraphFilter.Proofs.Json.Lookup
import GraphFilter.Proofs.Json.Members
import GraphFilter.Proofs.Json.Naturals
import GraphFilter.Proofs.Json.Progress
import GraphFilter.Proofs.Json.Records
import GraphFilter.Proofs.Json.Skipped
import GraphFilter.Proofs.Param.Distinct
import GraphFilter.Proofs.Param.Names
import GraphFilter.Proofs.Param.Normal
import GraphFilter.Proofs.Param.Numeric
import GraphFilter.Proofs.Param.Spelled
import GraphFilter.Proofs.Param.Whole
import GraphFilter.Proofs.Placeholder.Calls
import GraphFilter.Proofs.Placeholder.Fresh
import GraphFilter.Proofs.Placeholder.Least
import GraphFilter.Proofs.Placeholder.Reached
import GraphFilter.Proofs.Placeholder.Session
import GraphFilter.Proofs.Query.Outline
import GraphFilter.Proofs.Query.Paging
import GraphFilter.Proofs.Query.Parts
import GraphFilter.Proofs.Query.Placeholders
import GraphFilter.Proofs.Query.Selection
import GraphFilter.Proofs.Settings.Files
import GraphFilter.Proofs.Settings.Precedence
import GraphFilter.Proofs.Text.Trimmed
import GraphFilter.Proofs.Tree.Children
import GraphFilter.Proofs.Tree.Meaning
import GraphFilter.Proofs.Tree.Overstated
import GraphFilter.Proofs.Tree.Shape
import GraphFilter.Proofs.Tree.Tidy
import GraphFilter.Proofs.Tree.Traversal
import GraphFilter.Proofs.Where.Atoms
import GraphFilter.Proofs.Where.Binding
import GraphFilter.Proofs.Where.Built
import GraphFilter.Proofs.Where.Checked
import GraphFilter.Proofs.Where.Decoded
import GraphFilter.Proofs.Where.Derived
import GraphFilter.Proofs.Where.Drawn
import GraphFilter.Proofs.Where.Grammar
import GraphFilter.Proofs.Where.Malformed
import GraphFilter.Proofs.Where.Meaning
import GraphFilter.Proofs.Where.Numbered
import GraphFilter.Proofs.Where.Obtained
import GraphFilter.Proofs.Where.Outline
import GraphFilter.Proofs.Where.Refused
import GraphFilter.Proofs.Where.Respelled
import GraphFilter.Proofs.Where.Typed
import GraphFilter.Main
