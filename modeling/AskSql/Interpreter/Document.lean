import AskSql.Optimizer.Document
import AskSql.Question.Document
import AskSql.Query.Document
import AskSql.Settings.Document
import AskSql.Interpreter.Basic

/-!
# Interpretations and analyses as documents
-/

namespace AskSql

open Json (field fieldIfAny)

/-- An interpretation as a document. -/
def Interpretation.toJson (t : Interpretation) : Json :=
  .object (field "text" (.text t.text) ++ field "ir" t.query.toJson ++
    field "optimization" t.optimized.toJson ++ field "sql" (.text t.sql) ++
    fieldIfAny "params" Literal.toJson t.params ++
    field "explanation" (.text t.explanation) ++
    field "dialect" (.text t.dialect.name) ++
    field "strategy" (.text t.strategy))

/-- An analysis as a document. -/
def Analysis.toJson (a : Analysis) : Json :=
  .object (field "tokens" (Json.list Token.toJson a.tokens) ++
    field "entities" (Json.list Entity.toJson a.entities) ++ field "intent" a.intent.toJson)

end AskSql
