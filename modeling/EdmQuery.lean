import EdmQuery.Calendar.Date
import EdmQuery.Calendar.DateTime
import EdmQuery.Calendar.Duration
import EdmQuery.Calendar.Text
import EdmQuery.Calendar.TimeOfDay
import EdmQuery.Command
import EdmQuery.Config
import EdmQuery.Data.Guid
import EdmQuery.Data.Json
import EdmQuery.Data.JsonReader
import EdmQuery.Data.Node
import EdmQuery.Data.Yaml
import EdmQuery.Edm.Body
import EdmQuery.Edm.Coercion
import EdmQuery.Edm.Document
import EdmQuery.Edm.Entity
import EdmQuery.Edm.EntityType
import EdmQuery.Edm.Enumeration
import EdmQuery.Edm.Error
import EdmQuery.Edm.Model
import EdmQuery.Edm.Type
import EdmQuery.Edm.Value
import EdmQuery.Expr.BuiltIn
import EdmQuery.Expr.Cursor
import EdmQuery.Expr.Error
import EdmQuery.Expr.Eval
import EdmQuery.Expr.Expand
import EdmQuery.Expr.Literal
import EdmQuery.Expr.Matcher
import EdmQuery.Expr.Operation
import EdmQuery.Expr.Order
import EdmQuery.Expr.Parser
import EdmQuery.Expr.Printer
import EdmQuery.Expr.Recognizer
import EdmQuery.Expr.Scanner
import EdmQuery.Expr.Search
import EdmQuery.Expr.StaticType
import EdmQuery.Expr.Token
import EdmQuery.Expr.Tree
import EdmQuery.Main
import EdmQuery.Number.Binary
import EdmQuery.Number.Decimal
import EdmQuery.Number.DecimalText
import EdmQuery.Number.DoubleText
import EdmQuery.Number.Shortest
import EdmQuery.Query.Capability
import EdmQuery.Query.Error
import EdmQuery.Query.Options
import EdmQuery.Query.Pipeline
import EdmQuery.Query.Service
import EdmQuery.Sample.Airline
import EdmQuery.Sample.Build
import EdmQuery.Sample.Keys
import EdmQuery.Sample.Zoo
import EdmQuery.Sql.Condition
import EdmQuery.Sql.Dialect
import EdmQuery.Sql.Error
import EdmQuery.Sql.Join
import EdmQuery.Sql.Plan
import EdmQuery.Sql.Statement
import EdmQuery.Sql.Template
import EdmQuery.Sql.Term
import EdmQuery.Store.Collection
import EdmQuery.Store.Database
import EdmQuery.Store.Script
import EdmQuery.Text.Alphabetic
import EdmQuery.Text.Case
import EdmQuery.Text.CaseTable
import EdmQuery.Text.Cased
import EdmQuery.Text.Letter
import EdmQuery.Text.Numeric
import EdmQuery.Text.Pattern
import EdmQuery.Text.Span
import EdmQuery.Proofs.Edm.Comparison
import EdmQuery.Proofs.Expr.Order
import EdmQuery.Proofs.Expr.Settled
import EdmQuery.Proofs.Query.Pipeline
import EdmQuery.Proofs.Edm.Model
import EdmQuery.Proofs.Expr.Reading
import EdmQuery.Proofs.Sql.Condition
import EdmQuery.Proofs.Sql.Plan
import EdmQuery.Proofs.Query.Pushdown
import EdmQuery.Proofs.Sql.Semantics
import EdmQuery.Proofs.Sql.Mirror
import EdmQuery.Proofs.Sql.Parity
import EdmQuery.Proofs.Number.Decimal
import EdmQuery.Proofs.Number.Double
import EdmQuery.Proofs.Number.Nearest
import EdmQuery.Proofs.Number.Shortest
import EdmQuery.Proofs.Number.DoubleText
import EdmQuery.Proofs.Store.Keys
import EdmQuery.Proofs.Query.Requests
import EdmQuery.Proofs.Expr.Kinds
import EdmQuery.Proofs.Query.TypeSafety
import EdmQuery.Proofs.Calendar.Text
import EdmQuery.Proofs.Calendar.Duration
import EdmQuery.Proofs.Data.Guid
import EdmQuery.Proofs.Edm.RoundTrip
import EdmQuery.Proofs.Query.Records
import EdmQuery.Proofs.Sql.Joins
import EdmQuery.Proofs.Sql.Navigation
import EdmQuery.Proofs.Expr.Recognizing
import EdmQuery.Proofs.Calendar.DateTime
import EdmQuery.Proofs.Expr.Lexemes
import EdmQuery.Proofs.Expr.Literals
import EdmQuery.Proofs.Expr.Scoping
import EdmQuery.Proofs.Query.Expansion
import EdmQuery.Proofs.Query.Failures
import EdmQuery.Proofs.Sql.Binding
import EdmQuery.Proofs.Sql.Independence
import EdmQuery.Proofs.Edm.Enumeration
import EdmQuery.Proofs.Expr.Printing
import EdmQuery.Proofs.Query.Required
import EdmQuery.Proofs.Query.Isolation
import EdmQuery.Proofs.Sql.Aliases
import EdmQuery.Proofs.Sql.Nesting
import EdmQuery.Proofs.Sql.Search
import EdmQuery.Proofs.Expr.Rereading
import EdmQuery.Proofs.Expr.RoundTrip
import EdmQuery.Proofs.Expr.Height
import EdmQuery.Proofs.Expr.SearchHeight
import EdmQuery.Proofs.Number.FewDigits
import EdmQuery.Proofs.Edm.Lossless
import EdmQuery.Proofs.Text.Span
import EdmQuery.Proofs.Query.Sorting
import EdmQuery.Proofs.Number.Finite
import EdmQuery.Proofs.Number.Monotone
import EdmQuery.Proofs.Edm.Numbers
import EdmQuery.Proofs.Expr.Scanning
import EdmQuery.Proofs.Expr.Glyphs
import EdmQuery.Proofs.Expr.SearchText
import EdmQuery.Proofs.Expr.SearchRoundTrip
import EdmQuery.Proofs.Expr.Lexers
import EdmQuery.Proofs.Expr.Wording
import EdmQuery.Proofs.Expr.Padding
import EdmQuery.Proofs.Expr.Listing
import EdmQuery.Proofs.Expr.SearchPadding
import EdmQuery.Proofs.Query.OptionTexts
import EdmQuery.Proofs.Query.NestedOptions
import EdmQuery.Proofs.Expr.Spelling
import EdmQuery.Proofs.Expr.Spans
import EdmQuery.Proofs.Expr.Phrases
import EdmQuery.Proofs.Expr.Precedence
import EdmQuery.Proofs.Expr.Alternatives
import EdmQuery.Proofs.Sql.Fallback
import EdmQuery.Proofs.Sql.Explanation
import EdmQuery.Proofs.Sql.References
import EdmQuery.Proofs.Sql.Attempts
import EdmQuery.Proofs.Query.Permissions
import EdmQuery.Proofs.Query.Effects
import EdmQuery.Proofs.Query.Termination
import EdmQuery.Proofs.Query.Connections
import EdmQuery.Proofs.Query.FreshKeys
import EdmQuery.Proofs.Expr.Substrings
import EdmQuery.Proofs.Expr.SearchSequences
import EdmQuery.Proofs.Query.Attachments
import EdmQuery.Proofs.Expr.IntegerArithmetic
import EdmQuery.Proofs.Expr.Parentheses
import EdmQuery.Proofs.Expr.Rewinding
import EdmQuery.Proofs.Expr.Scanner
import EdmQuery.Proofs.Sql.Rendering
