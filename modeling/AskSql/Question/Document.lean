import AskSql.Question.Intent
import AskSql.Query.Document

/-!
# Tokens, entities and classifications as documents

The written form of what is made of a question as JSON documents, and the readers of those that may
be given from outside: tokens, entities and components.
-/

namespace AskSql

open Json (Decoder field fieldIfSome)

/-- The kinds of tokens by their names in documents. -/
def TokenKind.keywords : List (String × TokenKind) :=
  [("command", .command), ("aggregation", .aggregation), ("group_keyword", .groupWord),
    ("order_keyword", .orderWord), ("sort_direction", .sortDirection),
    ("limit_keyword", .limitWord), ("filter_keyword", .filterWord), ("join_keyword", .joinWord),
    ("join_type", .joinKind), ("subquery_keyword", .subqueryWord),
    ("cte_keyword", .namedSubqueryWord), ("window_keyword", .windowWord),
    ("distinct_keyword", .distinctWord), ("write_keyword", .writeWord),
    ("comparison", .comparison), ("logical", .logical), ("number", .number),
    ("string_literal", .quoted), ("date", .date), ("temporal", .temporal), ("null", .null),
    ("boolean", .boolean), ("identifier", .identifier), ("noun", .noun), ("verb", .verb),
    ("adverb", .adverb), ("determiner", .determiner), ("preposition", .preposition),
    ("punctuation", .punctuation), ("unknown", .unknown)]

/-- The kinds of entities by their names in documents. -/
def EntityKind.keywords : List (String × EntityKind) :=
  [("table", .table), ("column", .column), ("function", .function), ("number", .number),
    ("string", .string), ("date", .date), ("time_range", .timeRange), ("boolean", .boolean),
    ("null", .null), ("operator", .operator), ("aggregation", .aggregation)]

/-- The intents by their names in documents. -/
def Intent.keywords : List (String × Intent) :=
  [("retrieve", .retrieve), ("filter", .filter), ("sort", .sort), ("limit", .limit),
    ("count", .count), ("sum", .sum), ("average", .average), ("min_max", .minMax),
    ("group", .group), ("join", .join), ("subquery", .subquery), ("cte", .namedSubquery),
    ("window", .window), ("distinct", .distinct)]

/-- The name of a value in a list of names. -/
def keywordOf {α : Type} [BEq α] (names : List (String × α)) (value : α) : String :=
  ((names.find? fun e => e.2 == value).map Prod.fst).getD ""

namespace Token

/-- A token as a document. -/
def toJson (t : Token) : Json :=
  .object (field "text" (.text t.text) ++
    field "kind" (.text (keywordOf TokenKind.keywords t.kind)) ++
    field "position" (.nat t.position) ++ field "length" (.nat t.length) ++
    field "normalized" (.text t.normalized) ++ field "confidence" (.float t.confidence))

/-- The token that a document is. -/
def ofJson? : Decoder Token :=
  Json.record? ["text", "kind", "position", "length", "normalized", "confidence"] fun o parts => do
    let [text, kind, position, length, normalized, confidence] := parts | none
    return {
      text := ← Json.required? Json.string? o text
      kind := ← Json.required? (Json.choice? TokenKind.keywords) o kind
      position := ← Json.required? (Json.nat? 64) o position
      length := ← Json.required? (Json.nat? 64) o length
      normalized := ← Json.required? Json.string? o normalized
      confidence := ← Json.required? Json.float? o confidence }

end Token

namespace Entity

/-- Notes as a document. -/
def notesToJson (notes : List (String × String)) : Json :=
  .object (notes.map fun (name, value) => (name, .text value))

/-- The notes that a document is. -/
def notes? : Decoder (List (String × String))
  | o, .object members => do
    let pairs ← members.mapM fun (name, j) => do return (name, ← Json.string? o j)
    return pairs.foldl (fun acc (name, value) => Text.upsert name (fun _ => value) acc) []
  | _, _ => none

/-- An entity as a document. -/
def toJson (e : Entity) : Json :=
  .object (field "text" (.text e.text) ++
    field "kind" (.text (keywordOf EntityKind.keywords e.kind)) ++
    field "confidence" (.float e.confidence) ++ field "position" (.nat e.position) ++
    field "length" (.nat e.length) ++ field "resolved_name" (Json.orNull .text e.resolved) ++
    field "table" (Json.orNull .text e.table) ++ field "ambiguous" (.bool e.ambiguous) ++
    field "metadata" (notesToJson e.notes))

/-- The entity that a document is. -/
def ofJson? : Decoder Entity :=
  Json.record? ["text", "kind", "confidence", "position", "length", "resolved_name", "table",
      "ambiguous", "metadata"] fun o parts => do
    let [text, kind, confidence, position, length, resolved, table, ambiguous, notes] := parts
      | none
    let name? := Json.optional? (Json.nullable? Json.string?) none o
    return {
      text := ← Json.required? Json.string? o text
      kind := ← Json.required? (Json.choice? EntityKind.keywords) o kind
      confidence := ← Json.required? Json.float? o confidence
      position := ← Json.required? (Json.nat? 64) o position
      length := ← Json.required? (Json.nat? 64) o length
      resolved := ← name? resolved
      table := ← name? table
      ambiguous := ← Json.optional? Json.bool? false o ambiguous
      notes := ← Json.optional? notes? [] o notes }

end Entity

namespace Mention

/-- A mention as a document. -/
def toJson (m : Mention) : Json :=
  .object (field "column" (Json.orNull .text m.column) ++
    field "table" (Json.orNull .text m.table) ++ field "ambiguous" (.bool m.ambiguous))

/-- The mention that a document is. -/
def ofJson? : Decoder Mention :=
  Json.record? ["column", "table", "ambiguous"] fun o parts => do
    let [column, table, ambiguous] := parts | none
    let name? := Json.optional? (Json.nullable? Json.string?) none o
    return {
      column := ← name? column
      table := ← name? table
      ambiguous := ← Json.optional? Json.bool? false o ambiguous }

end Mention

namespace ConditionPart

/-- A comparison as a document. -/
def toJson (c : ConditionPart) : Json :=
  let name := Json.orNull Json.text
  .object (field "column" (name c.column) ++ field "table" (name c.table) ++
    field "operator" (.text c.operator) ++ field "value" (name c.value) ++
    field "value_kind" (Json.orNull (fun k => .text (keywordOf EntityKind.keywords k))
      c.valueKind) ++
    field "high" (name c.high) ++ field "modifier" (name c.modifier) ++
    fieldIfSome "days" Json.nat c.days)

/-- The comparison that a document is. -/
def ofJson? : Decoder ConditionPart :=
  Json.record? ["column", "table", "operator", "value", "value_kind", "high", "modifier", "days"]
    fun o parts => do
      let [column, table, operator, value, kind, high, modifier, days] := parts | none
      let name? := Json.optional? (Json.nullable? Json.string?) none o
      return {
        column := ← name? column
        table := ← name? table
        operator := ← Json.required? Json.string? o operator
        value := ← name? value
        valueKind :=
          ← Json.optional? (Json.nullable? (Json.choice? EntityKind.keywords)) none o kind
        high := ← name? high
        modifier := ← name? modifier
        days := ← Json.optional? (Json.nullable? (Json.nat? 32)) none o days }

end ConditionPart

namespace AggregationPart

/-- An aggregate as a document. -/
def toJson (a : AggregationPart) : Json :=
  .object (field "function" (.text a.function) ++ field "column" (.text a.column) ++
    field "table" (Json.orNull .text a.table))

/-- The aggregate that a document is. -/
def ofJson? : Decoder AggregationPart :=
  Json.record? ["function", "column", "table"] fun o parts => do
    let [function, column, table] := parts | none
    return {
      function := ← Json.required? Json.string? o function
      column := ← Json.required? Json.string? o column
      table := ← Json.optional? (Json.nullable? Json.string?) none o table }

end AggregationPart

namespace OrderPart

/-- A key of the order as a document. -/
def toJson (p : OrderPart) : Json :=
  .object (field "target" p.target.toJson ++
    field "direction" (Json.orNull (fun d => .text d.keyword) p.direction))

/-- The key of the order that a document is. -/
def ofJson? : Decoder OrderPart :=
  Json.record? ["target", "direction"] fun o parts => do
    let [target, direction] := parts | none
    return {
      target := ← Json.required? Mention.ofJson? o target
      direction :=
        ← Json.optional? (Json.nullable? (Json.choice? Direction.keywords)) none o direction }

end OrderPart

namespace JoinPart

/-- A join as a document. -/
def toJson (p : JoinPart) : Json :=
  .object (field "join_type" (.text p.kind) ++ field "left_table" (.text p.left) ++
    field "right_table" (.text p.right))

/-- The join that a document is. -/
def ofJson? : Decoder JoinPart :=
  Json.record? ["join_type", "left_table", "right_table"] fun o parts => do
    let [kind, left, right] := parts | none
    return {
      kind := ← Json.required? Json.string? o kind
      left := ← Json.required? Json.string? o left
      right := ← Json.required? Json.string? o right }

end JoinPart

namespace Components

/-- The components of a question as a document. -/
def toJson (c : Components) : Json :=
  .object (field "columns" (Json.list Mention.toJson c.columns) ++
    field "tables" (Json.list Json.text c.tables) ++
    field "conditions" (Json.list ConditionPart.toJson c.conditions) ++
    field "aggregations" (Json.list AggregationPart.toJson c.aggregations) ++
    field "group_by" (Json.list Mention.toJson c.groupBy) ++
    field "order_by" (Json.list OrderPart.toJson c.orderBy) ++
    field "joins" (Json.list JoinPart.toJson c.joins) ++
    field "limit" (Json.orNull Json.nat c.limit) ++ field "distinct" (.bool c.distinct) ++
    field "time_window_days" (Json.orNull Json.nat c.windowDays) ++
    field "month" (Json.orNull Json.nat c.month))

/-- The names of the components in documents. -/
def partNames : List String :=
  ["columns", "tables", "conditions", "aggregations", "group_by", "order_by", "joins", "limit",
    "distinct", "time_window_days", "month"]

/-- The components that a document is. -/
def ofJson? : Decoder Components :=
  Json.record? partNames fun o parts => do
    let [columns, tables, conditions, aggregations, groupBy, orderBy, joins, limit, distinct,
      windowDays, month] := parts | none
    let nat? (bits : Nat) := Json.optional? (Json.nullable? (Json.nat? bits)) none o
    return {
      columns := ← Json.required? (Json.list? Mention.ofJson?) o columns
      tables := ← Json.required? (Json.list? Json.string?) o tables
      conditions := ← Json.required? (Json.list? ConditionPart.ofJson?) o conditions
      aggregations := ← Json.required? (Json.list? AggregationPart.ofJson?) o aggregations
      groupBy := ← Json.required? (Json.list? Mention.ofJson?) o groupBy
      orderBy := ← Json.required? (Json.list? OrderPart.ofJson?) o orderBy
      joins := ← Json.required? (Json.list? JoinPart.ofJson?) o joins
      limit := ← nat? 64 limit
      distinct := ← Json.required? Json.bool? o distinct
      windowDays := ← nat? 32 windowDays
      month := ← nat? 32 month }

end Components

/-- The name of a type of query in documents. -/
def QueryType.keyword : QueryType → String
  | select => "SELECT"
  | insert => "INSERT"
  | update => "UPDATE"
  | delete => "DELETE"
  | create => "CREATE"

/-- The name of a complexity in documents. -/
def Complexity.keyword : Complexity → String
  | simple => "SIMPLE"
  | moderate => "MODERATE"
  | complex => "COMPLEX"
  | advanced => "ADVANCED"

/-- A score as a document. -/
def IntentScore.toJson (s : IntentScore) : Json :=
  .object (field "intent" (.text (keywordOf Intent.keywords s.intent)) ++
    field "score" (.float s.score))

/-- A classification as a document. -/
def Classification.toJson (c : Classification) : Json :=
  .object (field "primary" (.text (keywordOf Intent.keywords c.primary)) ++
    field "intents" (Json.list IntentScore.toJson c.intents) ++
    field "query_type" (.text c.queryType.keyword) ++
    field "components" c.components.toJson ++
    field "complexity" (.text c.complexity.keyword) ++ field "confidence" (.float c.confidence))

end AskSql
