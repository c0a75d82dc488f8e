import AskSql.Query.Basic
import AskSql.Render.Dialect

/-!
# Queries in words

`Query.explain` says line by line what a query reads, joins, computes, filters and returns.  A
line whose part of the query is empty is left out.
-/

namespace AskSql

/-- An aggregate as it would be written in a statement, without marks around names. -/
def Aggregate.describe (a : Aggregate) : String :=
  let arg := match a.argument with
    | .column c => if c.isStar then "*" else c.path
    | .arithmetic left op right => left.path ++ " " ++ op.symbol ++ " " ++ right.path
    | .raw sql => sql
  a.function.sqlName ++ "(" ++ (if a.distinct then "DISTINCT " else "") ++ arg ++ ")"

/-- What an aggregate computes, in words. -/
def Aggregate.purpose (a : Aggregate) : String :=
  match a.function, a.argument with
  | .count, .column c =>
    if c.isStar then s!"counting {c.table} rows" else "counting non-null values"
  | .count, _ => "counting non-null values"
  | .sum, .arithmetic left _ right => s!"summing {left.column} times {right.column} per line"
  | .sum, _ => "summing the measure"
  | .avg, _ => "averaging the measure"
  | .min, _ => "taking the smallest value"
  | .max, _ => "taking the largest value"

/-- An aggregate with its label and what it computes. -/
def Aggregate.explain (a : Aggregate) : String :=
  match a.label with
  | some label => a.describe ++ " as " ++ label ++ ", " ++ a.purpose
  | none => a.describe ++ ", " ++ a.purpose

/-- A left side in words. -/
def Operand.describe : Operand → String
  | column c => c.path
  | aggregate a => a.describe
  | monthOf c => "month of " ++ c.path
  | literal v => v.describe

/-- A condition in words. -/
def Condition.describe (c : Condition) : String :=
  let lhs := c.lhs.describe
  match c.rhs, c.op with
  | _, .isNull | .null, .eq => lhs ++ " is missing"
  | _, .isNotNull | .null, _ => lhs ++ " is present"
  | .daysAgo days, _ => s!"{lhs} within the last {days} days"
  | .range low high, _ => lhs ++ " between " ++ low.describe ++ " and " ++ high.describe
  | .list values, op =>
    lhs ++ " " ++ op.sql ++ " (" ++ String.intercalate ", " (values.map Literal.describe) ++ ")"
  | .literal value, op => lhs ++ " " ++ op.sql ++ " " ++ value.describe
  | .column column, op => lhs ++ " " ++ op.sql ++ " " ++ column.path
  | .subquery q, op => lhs ++ " " ++ op.sql ++ " a subquery over " ++ q.source

/-- A join in words. -/
def Join.explain (j : Join) : String :=
  let kind := match j.kind with
    | .inner => "inner"
    | .left => "left"
  let text := kind ++ " join " ++ j.table ++ " on " ++ j.left.path ++ " = " ++ j.right.path
  if j.conditions.isEmpty then text
  else
    text ++ " (with " ++ String.intercalate " and " (j.conditions.map Condition.describe) ++ ")"

/-- A key of the order in words. -/
def SortKey.explain (k : SortKey) : String :=
  let target := match k.item with
    | .column c => c.path
    | .aggregate a => a.label.getD a.describe
  match k.direction with
  | some .desc => target ++ " descending"
  | some .asc => target ++ " ascending"
  | none => target

/-- A line with a heading, unless it has no parts. -/
def headedLine (heading between : String) : List String → List String
  | [] => []
  | parts => [heading ++ ": " ++ String.intercalate between parts ++ "."]

/-- A query in words, for a dialect. -/
def Query.explain (q : Query) (d : Dialect) : String :=
  let dateNote :=
    if q.hasRelativeDate then s!" Relative dates use {d.name}'s own date arithmetic." else ""
  let note :=
    "Only the columns the answer needs are projected; " ++
      s!"SQL is rendered for the {d.name} dialect with quoted identifiers.{dateNote}"
  String.intercalate "\n" <|
    headedLine "Base table" "" [q.source] ++
      headedLine "Joins" "; " (q.joins.map Join.explain) ++
      headedLine "Aggregates" "; " (q.aggregates.map Aggregate.explain) ++
      headedLine "Grouped by" ", " (q.groupBy.map Reference.path) ++
      headedLine "Filters" "; " (q.filters.map Condition.describe) ++
      headedLine "Group filters" "; " (q.having.map Condition.describe) ++
      headedLine "Ordered by" ", " (q.orderBy.map SortKey.explain) ++
      (q.limit.toList.map fun n => s!"Limited to {n} rows.") ++ [note]

end AskSql
