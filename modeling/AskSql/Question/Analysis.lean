import AskSql.Question.Intent
import AskSql.Question.Recognize

/-!
# Analysis of a question

A question is cut into tokens, the tokens get a meaning in the schema, and the two together say
what is asked for.
-/

namespace AskSql

/-- A question with all that was found out about it. -/
structure Analysis where
  tokens : List Token
  entities : List Entity
  intent : Classification

/-- Analyses a question about a schema. -/
def analyze (s : Schema) (settings : RecognizerSettings) (text : String) : Analysis :=
  let tokens := tokenize (Dictionary.ofSchema s) text
  let entities := recognize s settings tokens
  { tokens, entities, intent := classify tokens entities }

end AskSql
