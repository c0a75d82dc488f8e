import AskSql.Query.Basic

/-!
# Renaming a table

A table of a query takes another name wherever the query refers to it.  Queries inside of
conditions have tables of their own and stay as they are.
-/

namespace AskSql

/-- Renames a table in an argument. -/
def Argument.renameTable (source target : String) : Argument → Argument
  | column c => column (c.renameTable source target)
  | arithmetic left op right =>
    arithmetic (left.renameTable source target) op (right.renameTable source target)
  | raw sql => raw sql

/-- Renames a table in an aggregate. -/
def Aggregate.renameTable (source target : String) (a : Aggregate) : Aggregate :=
  { a with argument := a.argument.renameTable source target }

/-- Renames a table in a selected item. -/
def Item.renameTable (source target : String) : Item → Item
  | column c => column (c.renameTable source target)
  | aggregate a => aggregate (a.renameTable source target)

/-- Renames a table on a left side. -/
def Operand.renameTable (source target : String) : Operand → Operand
  | column c => column (c.renameTable source target)
  | aggregate a => aggregate (a.renameTable source target)
  | monthOf c => monthOf (c.renameTable source target)
  | literal v => literal v

/-- Renames a table on a right side. -/
def Comparand.renameTable (source target : String) : Comparand → Comparand
  | column c => column (c.renameTable source target)
  | other => other

/-- Renames a table in a condition. -/
def Condition.renameTable (source target : String) (c : Condition) : Condition :=
  { lhs := c.lhs.renameTable source target, op := c.op, rhs := c.rhs.renameTable source target }

/-- Renames a table in a join. -/
def Join.renameTable (source target : String) (j : Join) : Join :=
  { kind := j.kind
    left := j.left.renameTable source target
    right := j.right.renameTable source target
    conditions := j.conditions.map (Condition.renameTable source target) }

/-- Renames a table in a key of the order. -/
def SortKey.renameTable (source target : String) (k : SortKey) : SortKey :=
  { k with item := k.item.renameTable source target }

/-- The table `source` of a query takes the name `target`. -/
def Query.renameTable (source target : String) (q : Query) : Query :=
  { source := if Text.sameFold q.source source then target else q.source
    items := q.items.map (Item.renameTable source target)
    joins := q.joins.map (Join.renameTable source target)
    filters := q.filters.map (Condition.renameTable source target)
    groupBy := q.groupBy.map (Reference.renameTable source target)
    having := q.having.map (Condition.renameTable source target)
    orderBy := q.orderBy.map (SortKey.renameTable source target)
    limit := q.limit
    distinct := q.distinct }

end AskSql
