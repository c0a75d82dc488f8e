import AskSql.Compose.Assembly
import AskSql.Compose.Heuristic
import AskSql.Compose.Service
import AskSql.Question.Analysis

/-!
# Strategies

The ways to turn a question into a query.
-/

namespace AskSql

/-- A way to turn a question into a query. -/
inductive Strategy where
  /-- By the words of the question. -/
  | heuristic
  /-- By the components that an analysis of the question finds. -/
  | classifier (settings : RecognizerSettings)
  /-- By a service. -/
  | delegating (service : Service)

namespace Strategy

/-- The name of a strategy. -/
def name : Strategy → String
  | heuristic => "heuristic"
  | classifier _ => "classifier"
  | delegating _ => "delegating"

/-- The query for a question. -/
def query (s : Schema) (default : Option String) (text : String) :
    Strategy → Except Failure Query
  | heuristic => Heuristic.query s default text
  | classifier settings => (analyze s settings text).intent.components.query s default
  | delegating service => service.query s default text

end Strategy

end AskSql
