import AskSql.Query.Expression
import AskSql.Text.Sorted

/-!
# Queries

A query reads a first table and joins others to it one after the other.  Every join names a column
of a table that is there already and a column of the table that it brings in.  Conditions stand
in the filter, behind a join, or in the filter of the groups; all conditions of a list have to
hold.  The right side of a condition may be a query of its own.
-/

namespace AskSql

mutual

/-- The right side of a condition. -/
inductive Comparand where
  | literal (value : Literal)
  | list (values : List Literal)
  | range (low high : Literal)
  | null
  /-- The day so many days before today. -/
  | daysAgo (days : Nat)
  | column (column : Reference)
  | subquery (query : Query)

/-- A comparison of two sides. -/
structure Condition where
  lhs : Operand
  op : Comparison
  rhs : Comparand

/-- A table that is joined on the equality of two columns: `left` belongs to a table that is
there already, `right` to the table that is brought in. -/
structure Join where
  kind : JoinKind := .inner
  left : Reference
  right : Reference
  conditions : List Condition := []

/-- A query. -/
structure Query where
  source : String
  items : List Item := []
  joins : List Join := []
  filters : List Condition := []
  groupBy : List Reference := []
  having : List Condition := []
  orderBy : List SortKey := []
  limit : Option Nat := none
  distinct : Bool := false

end

mutual

/-- Equality of right sides. -/
def Comparand.beq : Comparand → Comparand → Bool
  | .literal a, .literal b => a == b
  | .list as, .list bs => as == bs
  | .range a b, .range c d => a == c && b == d
  | .null, .null => true
  | .daysAgo a, .daysAgo b => a == b
  | .column a, .column b => a == b
  | .subquery p, .subquery q => Query.beq p q
  | _, _ => false

/-- Equality of conditions. -/
def Condition.beq : Condition → Condition → Bool
  | ⟨l, op, r⟩, ⟨l', op', r'⟩ => l == l' && op == op' && Comparand.beq r r'

/-- Equality of lists of conditions. -/
def Condition.listBeq : List Condition → List Condition → Bool
  | [], [] => true
  | c :: cs, d :: ds => Condition.beq c d && Condition.listBeq cs ds
  | _, _ => false

/-- Equality of joins. -/
def Join.beq : Join → Join → Bool
  | ⟨k, l, r, cs⟩, ⟨k', l', r', cs'⟩ => k == k' && l == l' && r == r' && Condition.listBeq cs cs'

/-- Equality of lists of joins. -/
def Join.listBeq : List Join → List Join → Bool
  | [], [] => true
  | j :: js, k :: ks => Join.beq j k && Join.listBeq js ks
  | _, _ => false

/-- Equality of queries. -/
def Query.beq : Query → Query → Bool
  | ⟨s, is, js, fs, gs, hs, os, l, d⟩, ⟨s', is', js', fs', gs', hs', os', l', d'⟩ =>
    s == s' && is == is' && Join.listBeq js js' && Condition.listBeq fs fs' && gs == gs' &&
      Condition.listBeq hs hs' && os == os' && l == l' && d == d'

end

instance : BEq Comparand := ⟨Comparand.beq⟩
instance : BEq Condition := ⟨Condition.beq⟩
instance : BEq Query := ⟨Query.beq⟩

/-- The words for a kind of right side. -/
def Comparand.kindName : Comparand → String
  | literal _ => "literal"
  | list _ => "value list"
  | range .. => "range"
  | null => "NULL"
  | daysAgo _ => "relative interval"
  | column _ => "column"
  | subquery _ => "subquery"

/-- The query that a right side is. -/
def Comparand.subquery? : Comparand → Option Query
  | subquery q => some q
  | _ => none

namespace Condition

/-- A column compared with a literal. -/
def compare (column : Reference) (op : Comparison) (value : Literal) : Condition :=
  ⟨.column column, op, .literal value⟩

/-- The references of a condition; those inside of a subquery are not counted. -/
def references (c : Condition) : List Reference :=
  match c.rhs with
  | .column r => c.lhs.references ++ [r]
  | _ => c.lhs.references

/-- The tables that a condition reads, in small letters, sorted and each once. -/
def tables (c : Condition) : List String :=
  Text.sortWords (c.references.map Reference.tableKey)

/-- Its left side is an aggregate. -/
def comparesAggregate (c : Condition) : Bool :=
  c.lhs.isAggregate

/-- Its right side is a number of days before today. -/
def isRelativeDate (c : Condition) : Bool :=
  match c.rhs with
  | .daysAgo _ => true
  | _ => false

/-- The one table that a condition reads, unless it compares an aggregate. -/
def singleTable? (c : Condition) : Option String :=
  if c.comparesAggregate then none
  else
    match c.tables with
    | [t] => some t
    | _ => none

end Condition

namespace Join

/-- The table that the join brings in. -/
def table (j : Join) : String :=
  j.right.table

/-- The join with its sides changed over. -/
def flipped (j : Join) : Join :=
  { j with left := j.right, right := j.left }

end Join

namespace Query

/-- The tables of a query in the order in which they are read. -/
def tables (q : Query) : List String :=
  q.source :: q.joins.map Join.table

/-- The query reads the table, whatever the case of its name. -/
def hasTable (q : Query) (table : String) : Bool :=
  q.tables.any fun t => Text.sameFold t table

/-- The query selects an aggregate. -/
def hasAggregates (q : Query) : Bool :=
  q.items.any Item.isAggregate

/-- The aggregates that the query selects. -/
def aggregates (q : Query) : List Aggregate :=
  q.items.filterMap Item.aggregate?

/-- All conditions: those of the filter, those of the groups, and those behind the joins. -/
def conditions (q : Query) : List Condition :=
  q.filters ++ q.having ++ q.joins.flatMap Join.conditions

/-- A condition compares with a number of days before today. -/
def hasRelativeDate (q : Query) : Bool :=
  q.conditions.any Condition.isRelativeDate

/-- A condition compares with a query. -/
def hasSubquery (q : Query) : Bool :=
  q.conditions.any fun c => c.rhs.subquery?.isSome

/-- Some table is joined with rows that need no match. -/
def hasLeftJoin (q : Query) : Bool :=
  q.joins.any fun j => j.kind == .left

/-- Every reference of the query with the clause in which it stands; those inside of subqueries
are not counted. -/
def references (q : Query) : List (Clause × Reference) :=
  let under (clause : Clause) (rs : List Reference) := rs.map fun r => (clause, r)
  under .select (q.items.flatMap Item.references) ++
    under .join (q.joins.flatMap fun j =>
      j.left :: j.right :: j.conditions.flatMap Condition.references) ++
    under .filter (q.filters.flatMap Condition.references) ++
    under .groupBy q.groupBy ++
    under .having (q.having.flatMap Condition.references) ++
    under .orderBy (q.orderBy.flatMap fun k => k.item.references)

@[simp] theorem length_tables (q : Query) : q.tables.length = q.joins.length + 1 := by
  simp [tables]

end Query

end AskSql
