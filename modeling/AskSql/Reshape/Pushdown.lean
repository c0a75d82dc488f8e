import AskSql.Reshape.Grouping

/-!
# Conditions pushed into joins

A condition of the filter that concerns one table alone is tested where an inner join brings this
table in.  Conditions on several tables, on aggregates and on subqueries stay in the filter, and so
do those on the first table and on tables of left joins.
-/

namespace AskSql

/-- The join brings in the table, and only matching rows of it. -/
def Join.admits (j : Join) (table : String) : Bool :=
  j.kind == .inner && Text.sameFold j.table table

/-- The place in the list of the first join that a condition of the filter can be pushed into. -/
def Query.pushTarget? (q : Query) (c : Condition) : Option Nat :=
  if c.rhs.subquery?.isSome then none
  else c.singleTable?.bind fun table => q.joins.findIdx? (·.admits table)

/-- Pushes the conditions of the filter into joins. -/
def Query.pushDown (q : Query) : Reshaped :=
  let targets := q.filters.filterMap q.pushTarget?
  let joins := q.joins.mapIdx fun i j =>
    { j with
      conditions := j.conditions ++ q.filters.filter fun c => q.pushTarget? c == some i }
  let tables := targets.filterMap fun i => (q.joins[i]?).map Join.table
  { query := { q with joins, filters := q.filters.filter fun c => (q.pushTarget? c).isNone }
    note :=
      if targets.isEmpty then none
      else some ("pushed " ++ toString targets.length ++ " predicates into joins on " ++
        String.intercalate ", " tables) }

end AskSql
