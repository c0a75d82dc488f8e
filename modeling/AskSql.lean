import AskSql.CommandLine
import AskSql.Compose.Assembly
import AskSql.Compose.Conditions
import AskSql.Compose.Heuristic
import AskSql.Compose.JoinTree
import AskSql.Compose.Mention
import AskSql.Compose.Phrasing
import AskSql.Compose.Service
import AskSql.Compose.Strategy
import AskSql.Csv
import AskSql.Decimal.Notation
import AskSql.Decimal.Rounding
import AskSql.Decimal.Shortest
import AskSql.Decimal.Whole
import AskSql.Failure
import AskSql.Interpreter.Basic
import AskSql.Interpreter.Document
import AskSql.Interpreter.Execution
import AskSql.JoinOrder.Graph
import AskSql.JoinOrder.Search
import AskSql.Json.Basic
import AskSql.Json.Decode
import AskSql.Json.Number
import AskSql.Json.Pretty
import AskSql.Json.Reader
import AskSql.Json.Writer
import AskSql.Main
import AskSql.Optimizer.Advice
import AskSql.Optimizer.Basic
import AskSql.Optimizer.Cache
import AskSql.Optimizer.Document
import AskSql.Optimizer.Report
import AskSql.Optimizer.Signature
import AskSql.Plan.Build
import AskSql.Plan.Cost
import AskSql.Plan.Tree
import AskSql.Proofs.Compose.Alternatives
import AskSql.Proofs.Compose.Assembly
import AskSql.Proofs.Compose.Conditions
import AskSql.Proofs.Compose.Heuristic
import AskSql.Proofs.Compose.JoinTree
import AskSql.Proofs.Compose.LookBack
import AskSql.Proofs.Compose.Merging
import AskSql.Proofs.Compose.Negation
import AskSql.Proofs.Compose.Numbers
import AskSql.Proofs.Compose.OuterJoin
import AskSql.Proofs.Compose.Requests
import AskSql.Proofs.Compose.Service
import AskSql.Proofs.Compose.Turning
import AskSql.Proofs.Decimal.Arithmetic
import AskSql.Proofs.Decimal.Integral
import AskSql.Proofs.Decimal.Nearest
import AskSql.Proofs.Decimal.Notation
import AskSql.Proofs.Decimal.Order
import AskSql.Proofs.Decimal.Product
import AskSql.Proofs.Decimal.Quotient
import AskSql.Proofs.Decimal.Rounding
import AskSql.Proofs.Decimal.Shares
import AskSql.Proofs.Decimal.Shortest
import AskSql.Proofs.JoinOrder.Enumeration
import AskSql.Proofs.JoinOrder.Greedy
import AskSql.Proofs.JoinOrder.Locality
import AskSql.Proofs.JoinOrder.Optimum
import AskSql.Proofs.JoinOrder.Reordering
import AskSql.Proofs.JoinOrder.Rows
import AskSql.Proofs.JoinOrder.Search
import AskSql.Proofs.JoinOrder.Selection
import AskSql.Proofs.JoinOrder.Walk
import AskSql.Proofs.Json.Decoding
import AskSql.Proofs.Json.Numeral
import AskSql.Proofs.Json.Reading
import AskSql.Proofs.Optimizer.Again
import AskSql.Proofs.Optimizer.Cached
import AskSql.Proofs.Optimizer.Cost
import AskSql.Proofs.Optimizer.Counts
import AskSql.Proofs.Optimizer.Fifo
import AskSql.Proofs.Optimizer.Grouping
import AskSql.Proofs.Optimizer.Locality
import AskSql.Proofs.Optimizer.Metadata
import AskSql.Proofs.Optimizer.Rendering
import AskSql.Proofs.Optimizer.Scope
import AskSql.Proofs.Optimizer.Signature
import AskSql.Proofs.Optimizer.Steps
import AskSql.Proofs.Optimizer.Store
import AskSql.Proofs.Plan.Accounting
import AskSql.Proofs.Plan.Cost
import AskSql.Proofs.Plan.Locality
import AskSql.Proofs.Query.Document
import AskSql.Proofs.Query.Literals
import AskSql.Proofs.Query.Mentions
import AskSql.Proofs.Query.Nested
import AskSql.Proofs.Query.Renaming
import AskSql.Proofs.Query.RoundTrip
import AskSql.Proofs.Query.Rows
import AskSql.Proofs.Query.Scope
import AskSql.Proofs.Query.Subqueries
import AskSql.Proofs.Query.Truth
import AskSql.Proofs.Question.Ambiguity
import AskSql.Proofs.Question.Coverage
import AskSql.Proofs.Question.Edits
import AskSql.Proofs.Question.Lexemes
import AskSql.Proofs.Question.Lexicon
import AskSql.Proofs.Question.Limits
import AskSql.Proofs.Question.Quoted
import AskSql.Proofs.Question.Recognition
import AskSql.Proofs.Question.Similarity
import AskSql.Proofs.Question.SpanDays
import AskSql.Proofs.Question.Spans
import AskSql.Proofs.Render.Clauses
import AskSql.Proofs.Render.Conditions
import AskSql.Proofs.Render.Expressible
import AskSql.Proofs.Render.Layout
import AskSql.Proofs.Render.OnClauses
import AskSql.Proofs.Render.Opposites
import AskSql.Proofs.Render.OrderKeys
import AskSql.Proofs.Render.Parameters
import AskSql.Proofs.Render.Pieces
import AskSql.Proofs.Render.Quoting
import AskSql.Proofs.Render.Skeleton
import AskSql.Proofs.Render.Words
import AskSql.Proofs.Render.Written
import AskSql.Proofs.Reshape.Distinct
import AskSql.Proofs.Reshape.Folding
import AskSql.Proofs.Reshape.Grouping
import AskSql.Proofs.Reshape.Mentions
import AskSql.Proofs.Reshape.Pushdown
import AskSql.Proofs.Reshape.Scope
import AskSql.Proofs.Reshape.Settled
import AskSql.Proofs.Reshape.Truth
import AskSql.Proofs.Reshape.Unnesting
import AskSql.Proofs.Schema.Declared
import AskSql.Proofs.Schema.Inflection
import AskSql.Proofs.Schema.JoinPath
import AskSql.Proofs.Schema.Lookup
import AskSql.Proofs.Schema.Observation
import AskSql.Proofs.Schema.Outline
import AskSql.Proofs.Schema.Reading
import AskSql.Proofs.Schema.Sample
import AskSql.Proofs.Schema.ShortestPath
import AskSql.Proofs.Schema.SpacedForms
import AskSql.Proofs.Schema.Suggested
import AskSql.Proofs.Schema.SurfaceForms
import AskSql.Proofs.Schema.Trail
import AskSql.Proofs.Text.Digits
import AskSql.Proofs.Text.Folding
import AskSql.Proofs.Text.Numerals
import AskSql.Proofs.Text.Patterns
import AskSql.Proofs.Text.Pieces
import AskSql.Proofs.Text.Sorted
import AskSql.Query.Basic
import AskSql.Query.Document
import AskSql.Query.Expression
import AskSql.Query.Rename
import AskSql.Query.Scope
import AskSql.Question.Analysis
import AskSql.Question.Component
import AskSql.Question.Document
import AskSql.Question.Entity
import AskSql.Question.Intent
import AskSql.Question.Recognize
import AskSql.Question.Rule
import AskSql.Question.Similarity
import AskSql.Question.Token
import AskSql.Question.Tokenize
import AskSql.Question.Wording
import AskSql.Render.Dialect
import AskSql.Render.Explain
import AskSql.Render.Statement
import AskSql.Reshape.Columns
import AskSql.Reshape.Folding
import AskSql.Reshape.Grouping
import AskSql.Reshape.Pushdown
import AskSql.Reshape.Unnesting
import AskSql.Schema.Basic
import AskSql.Schema.ColumnType
import AskSql.Schema.Document
import AskSql.Schema.JoinPath
import AskSql.Schema.Name
import AskSql.Schema.Reading
import AskSql.Schema.Relation
import AskSql.Schema.Sample
import AskSql.Script.Expression
import AskSql.Script.Parser
import AskSql.Script.Select
import AskSql.Script.Statement
import AskSql.Script.Token
import AskSql.Script.TypeName
import AskSql.Settings.Basic
import AskSql.Settings.Document
import AskSql.Text.Ascii
import AskSql.Text.Blank
import AskSql.Text.Letter
import AskSql.Text.Lowercase
import AskSql.Text.Numeral
import AskSql.Text.Pattern
import AskSql.Text.Ranges
import AskSql.Text.Sorted
