import FormulaBook.Api.Answer
import FormulaBook.Api.Route
import FormulaBook.Api.Target
import FormulaBook.Calendar
import FormulaBook.CommandLine.Command
import FormulaBook.CommandLine.Run
import FormulaBook.CommandLine.Words
import FormulaBook.Decimal.Binary
import FormulaBook.Decimal.Layout
import FormulaBook.Decimal.Numeral
import FormulaBook.Decimal.Shortest
import FormulaBook.Decimal.Significant
import FormulaBook.EvalError
import FormulaBook.Event.Basic
import FormulaBook.Event.Log
import FormulaBook.Event.Sink
import FormulaBook.Failure
import FormulaBook.Formula
import FormulaBook.Json.Basic
import FormulaBook.Json.Printer
import FormulaBook.Json.Reader
import FormulaBook.Main
import FormulaBook.NumberFormat
import FormulaBook.Project.Config
import FormulaBook.Project.Files
import FormulaBook.Project.Scaffold
import FormulaBook.Project.Setting
import FormulaBook.Project.Workspace
import FormulaBook.Proofs.Arithmetic.Balance
import FormulaBook.Proofs.Arithmetic.Block
import FormulaBook.Proofs.Arithmetic.Errors
import FormulaBook.Proofs.Arithmetic.ExprTree
import FormulaBook.Proofs.Arithmetic.Grammar
import FormulaBook.Proofs.Arithmetic.Infix
import FormulaBook.Proofs.Arithmetic.Matching
import FormulaBook.Proofs.Arithmetic.Positions
import FormulaBook.Proofs.Arithmetic.Postorder
import FormulaBook.Proofs.Arithmetic.Range
import FormulaBook.Proofs.Arithmetic.Yard
import FormulaBook.Proofs.CommandLine.Escape
import FormulaBook.Proofs.CommandLine.Execution
import FormulaBook.Proofs.CommandLine.JsonOutput
import FormulaBook.Proofs.CommandLine.Task
import FormulaBook.Proofs.CommandLine.Words
import FormulaBook.Proofs.Decimal.Digits
import FormulaBook.Proofs.Decimal.Numeral
import FormulaBook.Proofs.Decimal.Written
import FormulaBook.Proofs.Event.Filter
import FormulaBook.Proofs.Event.Lines
import FormulaBook.Proofs.Event.Marking
import FormulaBook.Proofs.Event.Narrowing
import FormulaBook.Proofs.Event.Query
import FormulaBook.Proofs.Event.Reading
import FormulaBook.Proofs.Event.RoundTrip
import FormulaBook.Proofs.Event.Subject
import FormulaBook.Proofs.Event.Torn
import FormulaBook.Proofs.Event.Window
import FormulaBook.Proofs.Event.Writing
import FormulaBook.Proofs.Json.Escape
import FormulaBook.Proofs.Json.Fields
import FormulaBook.Proofs.Json.Joined
import FormulaBook.Proofs.Json.Limits
import FormulaBook.Proofs.Json.Number
import FormulaBook.Proofs.Json.Order
import FormulaBook.Proofs.Json.RoundTrip
import FormulaBook.Proofs.Json.Structure
import FormulaBook.Proofs.Lexing.Binding
import FormulaBook.Proofs.Lexing.Blanks
import FormulaBook.Proofs.Lexing.Foreign
import FormulaBook.Proofs.Lexing.Language
import FormulaBook.Proofs.Lexing.Lexemes
import FormulaBook.Proofs.Lexing.Placeholders
import FormulaBook.Proofs.Lexing.Scan
import FormulaBook.Proofs.Lexing.Spacing
import FormulaBook.Proofs.Lookup
import FormulaBook.Proofs.Outcome
import FormulaBook.Proofs.Project.Recording
import FormulaBook.Proofs.Resolution.Accepted
import FormulaBook.Proofs.Resolution.Activations
import FormulaBook.Proofs.Resolution.Blame
import FormulaBook.Proofs.Resolution.Blanks
import FormulaBook.Proofs.Resolution.Cache
import FormulaBook.Proofs.Resolution.Cycles
import FormulaBook.Proofs.Resolution.Depth
import FormulaBook.Proofs.Resolution.Entries
import FormulaBook.Proofs.Resolution.Execution
import FormulaBook.Proofs.Resolution.Failures
import FormulaBook.Proofs.Resolution.Frame
import FormulaBook.Proofs.Resolution.Locality
import FormulaBook.Proofs.Resolution.Meaning
import FormulaBook.Proofs.Resolution.Nesting
import FormulaBook.Proofs.Resolution.Plain
import FormulaBook.Proofs.Resolution.Propagation
import FormulaBook.Proofs.Resolution.Range
import FormulaBook.Proofs.Resolution.Redefinition
import FormulaBook.Proofs.Resolution.Rings
import FormulaBook.Proofs.Resolution.Search
import FormulaBook.Proofs.Resolution.Step
import FormulaBook.Proofs.Resolution.Totality
import FormulaBook.Proofs.Session.Contents
import FormulaBook.Proofs.Session.Listing
import FormulaBook.Proofs.Session.Snapshot
import FormulaBook.Proofs.Text.Ascii
import FormulaBook.Proofs.Text.Halves
import FormulaBook.Proofs.Text.Name
import FormulaBook.Proofs.Text.OpenLine
import FormulaBook.Proofs.Text.Trimmed
import FormulaBook.Proofs.Text.Uppercase
import FormulaBook.Proofs.Validation
import FormulaBook.Proofs.Workbook.Calls
import FormulaBook.Proofs.Workbook.Guarantees
import FormulaBook.Proofs.Workbook.Keeping
import FormulaBook.Proofs.Workbook.Strict
import FormulaBook.Resolution.Basic
import FormulaBook.Session.Basic
import FormulaBook.Session.Record
import FormulaBook.Text.Blank
import FormulaBook.Text.CodePoint
import FormulaBook.Text.DecimalDigit
import FormulaBook.Text.Lines
import FormulaBook.Text.Lowercase
import FormulaBook.Text.Printable
import FormulaBook.Text.Quoted
import FormulaBook.Text.Uppercase
import FormulaBook.Text.Utf8
import FormulaBook.Token.Basic
import FormulaBook.Token.Evaluate
import FormulaBook.Token.Lexer
import FormulaBook.Token.Postfix
import FormulaBook.Validation
import FormulaBook.Value.Basic
import FormulaBook.Value.Text
import FormulaBook.Variable
import FormulaBook.Workbook.Basic
import FormulaBook.Workbook.Spec
import FormulaBook.Yaml.Cursor
import FormulaBook.Yaml.Document
import FormulaBook.Yaml.Load
import FormulaBook.Yaml.Node
import FormulaBook.Yaml.ScalarText
import FormulaBook.Yaml.ScalarType
import FormulaBook.Yaml.Token
