import AskSql.Json.Decode
import AskSql.Json.Reader
import AskSql.Json.Writer
import AskSql.Query.Basic

/-!
# Queries as documents

A query has a written form as a JSON document: an object with a member for each part, where parts
that are absent, empty or false are left out.  Alternatives carry their kind in the member `kind`
next to their own parts; a literal has its type and its value side by side.  `Query.toJson` writes
the form and `Query.ofJson?` reads it.
-/

namespace AskSql

open Json (Decoder Origin field fieldIfSome fieldIfAny fieldIfTrue)

namespace Reference

/-- The parts of a reference. -/
def members (r : Reference) : List (String × Json) :=
  field "table" (.text r.table) ++ field "column" (.text r.column) ++
    fieldIfSome "alias" Json.text r.label

/-- A reference as a document. -/
def toJson (r : Reference) : Json :=
  .object r.members

/-- The reference that a document is. -/
def ofJson? : Decoder Reference :=
  Json.record? ["table", "column", "alias"] fun o parts => do
    let [table, column, label] := parts | none
    return {
      table := ← Json.required? Json.string? o table
      column := ← Json.required? Json.string? o column
      label := ← Json.optional? (Json.nullable? Json.string?) none o label }

end Reference

namespace AggregateFunction

/-- The functions by their names in documents. -/
def keywords : List (String × AggregateFunction) :=
  [("count", count), ("sum", sum), ("avg", avg), ("min", min), ("max", max)]

/-- The name of a function in documents. -/
def keyword : AggregateFunction → String
  | count => "count"
  | sum => "sum"
  | avg => "avg"
  | min => "min"
  | max => "max"

end AggregateFunction

namespace Arithmetic

/-- The operations by their names in documents. -/
def keywords : List (String × Arithmetic) :=
  [("add", add), ("subtract", subtract), ("multiply", multiply), ("divide", divide)]

/-- The name of an operation in documents. -/
def keyword : Arithmetic → String
  | add => "add"
  | subtract => "subtract"
  | multiply => "multiply"
  | divide => "divide"

end Arithmetic

namespace Argument

/-- An argument as a document. -/
def toJson : Argument → Json
  | column c => .object (field "kind" (.text "column") ++ field "column" c.toJson)
  | arithmetic left op right =>
    .object (field "kind" (.text "arithmetic") ++ field "left" left.toJson ++
      field "op" (.text op.keyword) ++ field "right" right.toJson)
  | raw sql => .object (field "kind" (.text "raw") ++ field "sql" (.text sql))

/-- The argument that a document is. -/
def ofJson? : Decoder Argument :=
  Json.alternatives? "kind" [
    ("column", fun rest => do
      let [c] ← Json.parts? ["column"] rest | none
      return column (← Json.required? Reference.ofJson? .held c)),
    ("arithmetic", fun rest => do
      let [left, op, right] ← Json.parts? ["left", "op", "right"] rest | none
      return arithmetic (← Json.required? Reference.ofJson? .held left)
        (← Json.required? (Json.choice? Arithmetic.keywords) .held op)
        (← Json.required? Reference.ofJson? .held right)),
    ("raw", fun rest => do
      let [sql] ← Json.parts? ["sql"] rest | none
      return raw (← Json.required? Json.string? .held sql))]

end Argument

namespace Aggregate

/-- The parts of an aggregate. -/
def members (a : Aggregate) : List (String × Json) :=
  field "func" (.text a.function.keyword) ++ field "expr" a.argument.toJson ++
    fieldIfSome "alias" Json.text a.label ++ fieldIfTrue "distinct" a.distinct

/-- The aggregate that a document is. -/
def ofJson? : Decoder Aggregate :=
  Json.record? ["func", "expr", "alias", "distinct"] fun o parts => do
    let [function, argument, label, distinct] := parts | none
    return {
      function := ← Json.required? (Json.choice? AggregateFunction.keywords) o function
      argument := ← Json.required? Argument.ofJson? o argument
      label := ← Json.optional? (Json.nullable? Json.string?) none o label
      distinct := ← Json.optional? Json.bool? false o distinct }

end Aggregate

namespace Item

/-- An item as a document. -/
def toJson : Item → Json
  | column c => .object (field "kind" (.text "column") ++ c.members)
  | aggregate a => .object (field "kind" (.text "aggregate") ++ a.members)

/-- The item that a document is. -/
def ofJson? : Decoder Item :=
  Json.alternatives? "kind" [
    ("column", fun rest => column <$> Reference.ofJson? .held rest),
    ("aggregate", fun rest => aggregate <$> Aggregate.ofJson? .held rest)]

end Item

namespace Literal

/-- A literal as a document. -/
def toJson : Literal → Json
  | integer n => typed "integer" (.int n)
  | float x => typed "float" (.float x)
  | text s => typed "text" (.text s)
  | boolean b => typed "boolean" (.bool b)
  | date s => typed "date" (.text s)
where
  /-- A type with a value of it. -/
  typed (type : String) (value : Json) : Json :=
    .object (field "type" (.text type) ++ field "value" value)

/-- What the types make of a value. -/
def types : List (String × Decoder Literal) :=
  [("integer", fun o j => integer <$> Json.int64? o j),
    ("float", fun o j => float <$> Json.float? o j),
    ("text", fun o j => text <$> Json.string? o j),
    ("boolean", fun o j => boolean <$> Json.bool? o j),
    ("date", fun o j => date <$> Json.string? o j)]

/-- The literal that a document is. -/
def ofJson? : Decoder Literal :=
  Json.record? ["type", "value"] fun o parts => do
    let [some type, some value] := parts | none
    (← Json.choice? types o type) o value

end Literal

namespace Operand

/-- A left side as a document. -/
def toJson : Operand → Json
  | column c => .object (field "kind" (.text "column") ++ c.members)
  | aggregate a => .object (field "kind" (.text "aggregate") ++ a.members)
  | monthOf c => .object (field "kind" (.text "month_of") ++ field "column" c.toJson)
  | literal v => .object (field "kind" (.text "literal") ++ field "value" v.toJson)

/-- The left side that a document is. -/
def ofJson? : Decoder Operand :=
  Json.alternatives? "kind" [
    ("column", fun rest => column <$> Reference.ofJson? .held rest),
    ("aggregate", fun rest => aggregate <$> Aggregate.ofJson? .held rest),
    ("month_of", fun rest => do
      let [c] ← Json.parts? ["column"] rest | none
      return monthOf (← Json.required? Reference.ofJson? .held c)),
    ("literal", fun rest => do
      let [v] ← Json.parts? ["value"] rest | none
      return literal (← Json.required? Literal.ofJson? .held v))]

end Operand

namespace Comparison

/-- The comparisons by their names in documents. -/
def keywords : List (String × Comparison) :=
  [("eq", eq), ("not_eq", notEq), ("lt", lt), ("lt_eq", ltEq), ("gt", gt), ("gt_eq", gtEq),
    ("like", like), ("i_like", iLike), ("not_like", notLike), ("in", isIn), ("not_in", notIn),
    ("between", between), ("is_null", isNull), ("is_not_null", isNotNull)]

/-- The name of a comparison in documents. -/
def keyword : Comparison → String
  | eq => "eq"
  | notEq => "not_eq"
  | lt => "lt"
  | ltEq => "lt_eq"
  | gt => "gt"
  | gtEq => "gt_eq"
  | like => "like"
  | iLike => "i_like"
  | notLike => "not_like"
  | isIn => "in"
  | notIn => "not_in"
  | between => "between"
  | isNull => "is_null"
  | isNotNull => "is_not_null"

end Comparison

/-- The kinds of joins by their names in documents. -/
def JoinKind.keywords : List (String × JoinKind) :=
  [("inner", .inner), ("left", .left)]

/-- The name of a kind of join in documents. -/
def JoinKind.keyword : JoinKind → String
  | inner => "inner"
  | left => "left"

/-- The directions by their names in documents. -/
def Direction.keywords : List (String × Direction) :=
  [("asc", .asc), ("desc", .desc)]

/-- The name of a direction in documents. -/
def Direction.keyword : Direction → String
  | asc => "asc"
  | desc => "desc"

namespace SortKey

/-- A key of the order as a document. -/
def toJson (k : SortKey) : Json :=
  .object (field "expr" k.item.toJson ++
    fieldIfSome "direction" (fun d => .text d.keyword) k.direction)

/-- The key of the order that a document is. -/
def ofJson? : Decoder SortKey :=
  Json.record? ["expr", "direction"] fun o parts => do
    let [item, direction] := parts | none
    return {
      item := ← Json.required? Item.ofJson? o item
      direction :=
        ← Json.optional? (Json.nullable? (Json.choice? Direction.keywords)) none o direction }

end SortKey

/-- A member with some items that is left out where there are none. -/
def fieldOfItems (name : String) : List Json → List (String × Json)
  | [] => []
  | js => [(name, .array js)]

mutual

/-- A right side as a document. -/
def Comparand.toJson : Comparand → Json
  | .literal v => .object (field "kind" (.text "literal") ++ field "value" v.toJson)
  | .list vs =>
    .object (field "kind" (.text "literal_set") ++ field "values" (Json.list Literal.toJson vs))
  | .range low high =>
    .object (field "kind" (.text "range") ++ field "low" low.toJson ++ field "high" high.toJson)
  | .null => .object (field "kind" (.text "null"))
  | .daysAgo n =>
    .object (field "kind" (.text "relative_interval") ++ field "interval_days" (.nat n))
  | .column c => .object (field "kind" (.text "column") ++ field "column" c.toJson)
  | .subquery q =>
    .object (field "kind" (.text "subquery") ++ field "query" (Query.toJson q))

/-- A condition as a document. -/
def Condition.toJson : Condition → Json
  | ⟨lhs, op, rhs⟩ =>
    .object (field "lhs" lhs.toJson ++ field "op" (.text op.keyword) ++
      field "rhs" (Comparand.toJson rhs))

/-- Conditions as documents. -/
def Condition.allToJson : List Condition → List Json
  | [] => []
  | c :: cs => Condition.toJson c :: Condition.allToJson cs

/-- A join as a document. -/
def Join.toJson : Join → Json
  | ⟨kind, left, right, conditions⟩ =>
    .object (field "kind" (.text kind.keyword) ++ field "left" left.toJson ++
      field "right" right.toJson ++ fieldOfItems "conditions" (Condition.allToJson conditions))

/-- Joins as documents. -/
def Join.allToJson : List Join → List Json
  | [] => []
  | j :: js => Join.toJson j :: Join.allToJson js

/-- A query as a document. -/
def Query.toJson : Query → Json
  | ⟨source, items, joins, filters, groupBy, having, orderBy, limit, distinct⟩ =>
    .object (field "from" (.text source) ++ field "columns" (Json.list Item.toJson items) ++
      fieldOfItems "joins" (Join.allToJson joins) ++
      fieldOfItems "where" (Condition.allToJson filters) ++
      fieldIfAny "group_by" Reference.toJson groupBy ++
      fieldOfItems "having" (Condition.allToJson having) ++
      fieldIfAny "order_by" SortKey.toJson orderBy ++
      fieldIfSome "limit" Json.nat limit ++ fieldIfTrue "distinct" distinct)

end

/-- The right side that a document is, if `query?` reads the queries in it. -/
def Comparand.ofJson? (query? : Decoder Query) : Decoder Comparand :=
  Json.alternatives? "kind" [
    ("literal", fun rest => do
      let [v] ← Json.parts? ["value"] rest | none
      return literal (← Json.required? Literal.ofJson? .held v)),
    ("literal_set", fun rest => do
      let [vs] ← Json.parts? ["values"] rest | none
      return list (← Json.required? (Json.list? Literal.ofJson?) .held vs)),
    ("range", fun rest => do
      let [low, high] ← Json.parts? ["low", "high"] rest | none
      return range (← Json.required? Literal.ofJson? .held low)
        (← Json.required? Literal.ofJson? .held high)),
    ("null", fun rest => (Json.noParts? rest).map fun _ => null),
    ("relative_interval", fun rest => do
      let [n] ← Json.parts? ["interval_days"] rest | none
      return daysAgo (← Json.required? (Json.nat? 32) .held n)),
    ("column", fun rest => do
      let [c] ← Json.parts? ["column"] rest | none
      return column (← Json.required? Reference.ofJson? .held c)),
    ("subquery", fun rest => do
      let [q] ← Json.parts? ["query"] rest | none
      return subquery (← Json.required? query? .held q))]

/-- The condition that a document is, if `query?` reads the queries in it. -/
def Condition.ofJson? (query? : Decoder Query) : Decoder Condition :=
  Json.record? ["lhs", "op", "rhs"] fun o parts => do
    let [lhs, op, rhs] := parts | none
    return {
      lhs := ← Json.required? Operand.ofJson? o lhs
      op := ← Json.required? (Json.choice? Comparison.keywords) o op
      rhs := ← Json.required? (Comparand.ofJson? query?) o rhs }

/-- The join that a document is, if `query?` reads the queries in it. -/
def Join.ofJson? (query? : Decoder Query) : Decoder Join :=
  Json.record? ["kind", "left", "right", "conditions"] fun o parts => do
    let [kind, left, right, conditions] := parts | none
    return {
      kind := ← Json.optional? (Json.choice? JoinKind.keywords) .inner o kind
      left := ← Json.required? Reference.ofJson? o left
      right := ← Json.required? Reference.ofJson? o right
      conditions := ← Json.optional? (Json.list? (Condition.ofJson? query?)) [] o conditions }

namespace Query

/-- The names of the parts of a query. -/
def partNames : List String :=
  ["from", "columns", "joins", "where", "group_by", "having", "order_by", "limit", "distinct"]

/-- The query that a document is, with queries inside of queries down to a depth. -/
def ofJsonTo? : Nat → Decoder Query
  | 0 => fun _ _ => none
  | n + 1 => Json.record? partNames fun o parts => do
    let [source, items, joins, filters, groupBy, having, orderBy, limit, distinct] := parts
      | none
    let conditions? := Json.list? (Condition.ofJson? (ofJsonTo? n))
    return {
      source := ← Json.required? Json.string? o source
      items := ← Json.required? (Json.list? Item.ofJson?) o items
      joins := ← Json.optional? (Json.list? (Join.ofJson? (ofJsonTo? n))) [] o joins
      filters := ← Json.optional? conditions? [] o filters
      groupBy := ← Json.optional? (Json.list? Reference.ofJson?) [] o groupBy
      having := ← Json.optional? conditions? [] o having
      orderBy := ← Json.optional? (Json.list? SortKey.ofJson?) [] o orderBy
      limit := ← Json.optional? (Json.nullable? (Json.nat? 64)) none o limit
      distinct := ← Json.optional? Json.bool? false o distinct }

/-- The query that a document is. -/
def ofJson? : Decoder Query := fun o j =>
  ofJsonTo? (j.depth + 1) o j

/-- The text of a query. -/
def toText (q : Query) : String :=
  q.toJson.render

/-- The query that a text holds. -/
def ofText? (s : String) : Option Query := do
  ofJson? (.direct Json.nestingLimit) (← Json.parse? s)

end Query

end AskSql
