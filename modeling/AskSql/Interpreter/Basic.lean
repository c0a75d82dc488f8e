import AskSql.Compose.Strategy
import AskSql.Optimizer.Basic
import AskSql.Render.Explain
import AskSql.Render.Statement

/-!
# The interpreter

An interpreter turns questions about a schema into statements: a strategy puts a query together,
the optimizer improves it, and a dialect writes it down.  Between questions it keeps nothing but
the results of its optimizer.
-/

namespace AskSql

/-- A question with the statement that it is taken for. -/
structure Interpretation where
  text : String
  /-- The query before it was optimized. -/
  query : Query
  optimized : Optimized
  sql : String
  /-- The values that the placeholders of the statement stand for. -/
  params : List Literal
  explanation : String
  dialect : Dialect
  /-- The name of the strategy. -/
  strategy : String

/-- An interpreter of questions about a schema. -/
structure Interpreter where
  schema : Schema
  settings : Settings
  strategy : Strategy
  optimizer : Optimizer

namespace Interpreter

/-- An interpreter with settings that pass their check. -/
def ofSettings (schema : Schema) (settings : Settings) (strategy : Strategy := .heuristic) :
    Except Failure Interpreter := do
  settings.check
  return { schema, settings, strategy, optimizer := .ofSettings settings.optimizer }

/-- The query for a question; a failure notes the question. -/
def query (t : Interpreter) (text : String) : Except Failure Query :=
  (t.strategy.query t.schema t.settings.defaultTable text).mapError (.withContext text)

/-- The statement for a question whose query was found and optimized. -/
def render (t : Interpreter) (text : String) (d : Dialect) (q : Query) (r : Optimized) :
    Except Failure Interpretation := do
  let s ← r.query.renderAs d t.settings.render.pretty t.settings.render.parameterized
  return {
    text, query := q, optimized := r, sql := s.sql, params := s.params,
    explanation := r.query.explain d, dialect := d, strategy := t.strategy.name }

/-- Interprets a question, and gives the interpreter as it is afterwards. -/
def interpret (t : Interpreter) (text : String) (d : Dialect) :
    Except Failure Interpretation × Interpreter :=
  match t.query text with
  | .error f => (.error f, t)
  | .ok q =>
    let (result, optimizer) := t.optimizer.optimize q t.schema
    (result.bind (t.render text d q), { t with optimizer })

/-- Analyses a question. -/
def analyze (t : Interpreter) (text : String) : Analysis :=
  AskSql.analyze t.schema t.settings.recognizer text

/-- Forgets all results. -/
def clear (t : Interpreter) : Interpreter :=
  { t with optimizer := t.optimizer.clear }

end Interpreter

end AskSql
