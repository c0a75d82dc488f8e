import AskSql.Reshape.Grouping
import AskSql.Schema.Basic

/-!
# Subqueries turned into joins

A condition that asks for the value of a column among the keys of a table becomes a join with this
table, as every key stands there once.  The subquery has to select the key alone, without joins,
groups, aggregates or limit, of a table that the query does not read yet.
-/

namespace AskSql

/-- The subquery reads one table and hands on a row for every row that its filter leaves over. -/
def Query.isPlainSelection (q : Query) : Bool :=
  q.joins.isEmpty && q.groupBy.isEmpty && q.having.isEmpty && !q.hasAggregates &&
    q.limit.isNone && q.items.length == 1

/-- The primary key that a plain selection selects. -/
def Query.selectedKey? (s : Schema) (q : Query) : Option Reference := do
  let key ← q.plainColumns.head?
  let primary ← (← s.table? q.source).primaryKey?
  if !key.isStar && Text.sameFold key.column primary.name && Text.sameFold key.table q.source then
    some key
  else none

/-- The join that a condition amounts to, in a query that reads some tables. -/
def Condition.unnested? (s : Schema) (tables : List String) (c : Condition) : Option Join :=
  match c.lhs, c.op, c.rhs with
  | .column outer, .isIn, .subquery sub =>
    if sub.isPlainSelection && !tables.any (Text.sameFold · sub.source) then
      (sub.selectedKey? s).map fun key =>
        { left := outer.unlabelled, right := key.unlabelled, conditions := sub.filters }
    else none
  | _, _, _ => none

namespace Query

/-- Turns a condition of the filter into a join where possible: the joins so far, the conditions
that stay, and the tables that were brought in. -/
def unnestStep (s : Schema) (source : String)
    (acc : List Join × List Condition × List String) (c : Condition) :
    List Join × List Condition × List String :=
  let (joins, filters, tables) := acc
  match c.unnested? s (source :: joins.map Join.table), c.rhs.subquery? with
  | some j, some sub => (joins ++ [j], filters, tables ++ [sub.source])
  | _, _ => (joins, filters ++ [c], tables)

/-- Turns conditions of the filter into joins. -/
def unnest (s : Schema) (q : Query) : Reshaped :=
  let (joins, filters, tables) := q.filters.foldl (unnestStep s q.source) (q.joins, [], [])
  { query := { q with joins, filters }
    note := (joinNotes ", " tables).map ("unnested IN-subqueries on " ++ ·) }

end Query

end AskSql
