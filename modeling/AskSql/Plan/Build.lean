import AskSql.Plan.Cost
import AskSql.Plan.Tree

/-!
# The plan of a query

Each table is read once, by an index where a condition allows it, and the conditions that concern
this table alone are tested there.  The tables are joined in the order in which the query names
them.  Then follow the remaining conditions, the grouping with the conditions on groups, the order
and the limit.
-/

namespace AskSql

/-- The share of rows that a grouping is taken to leave over. -/
def groupReduction : Float := 0.1

/-- Literals are compared for equality with a column of the table that has an index: the name of
this column. -/
def Condition.indexColumn? (s : Schema) (table : String) (c : Condition) : Option String :=
  match c.lhs, c.op, c.rhs with
  | .column r, .eq, .literal _ =>
    if Text.sameFold r.table table && ((s.column? table r.column).map Column.hasIndex).getD false
    then some r.column
    else none
  | _, _, _ => none

/-- Takes the first condition that an index helps with out of a list: the indexed column and the
other conditions. -/
def takeIndexed (s : Schema) (table : String) :
    List Condition → Option (String × List Condition)
  | [] => none
  | c :: cs =>
    match c.indexColumn? s table with
    | some column => some (column, cs)
    | none => (takeIndexed s table cs).map fun (column, rest) => (column, c :: rest)

/-- The conditions of the filter that concern a table alone. -/
def Query.localFilters (q : Query) (table : String) : List Condition :=
  q.filters.filter fun c => c.singleTable? == some (Text.lower table)

/-- The conditions of the filter that concern no table alone. -/
def Query.residualFilters (q : Query) : List Condition :=
  q.filters.filter fun c => c.singleTable?.isNone

namespace CostModel

/-- Tests conditions on the rows of a plan. -/
def filtered (m : CostModel) (cs : List Condition) (input : Plan) : Plan :=
  if cs.isEmpty then input
  else
    let share := combinedSelectivity cs
    .filter cs.length share
      ⟨m.filterCost cs.length, Decimal.larger (input.rows * share) 1.0, input.width⟩ input

/-- Reads a table and tests conditions on its rows. -/
def accessPath (m : CostModel) (table : String) (cs : List Condition) : Plan :=
  let rows := m.tableRows table
  let width := m.tableWidth table
  match takeIndexed m.schema table cs with
  | some (column, rest) =>
    let matched := Decimal.larger (rows * Comparison.eq.selectivity) 1.0
    m.filtered rest (.indexScan table column ⟨m.indexScanCost rows matched width, matched, width⟩)
  | none => m.filtered cs (.scan table ⟨m.scanCost rows width, rows, width⟩)

/-- Joins a table to the rows of a plan. -/
def joined (m : CostModel) (algorithm : JoinAlgorithm) (q : Query) (left : Plan) (j : Join) :
    Plan :=
  let right := m.accessPath j.table (q.localFilters j.table ++ j.conditions)
  let cost := match algorithm with
    | .nestedLoop => m.nestedLoopCost left.rows right.rows
    | .hash => m.hashJoinCost left.rows right.rows
  let rows := match j.kind with
    | .inner => joinRows left.rows right.rows
    | .left => Decimal.larger (joinRows left.rows right.rows) left.rows
  .join j.table j.kind algorithm ⟨cost, rows, left.width + right.width⟩ left right

/-- Groups the rows of a plan and tests the conditions on groups. -/
def grouped (m : CostModel) (q : Query) (input : Plan) : Plan :=
  if q.hasAggregates || !q.groupBy.isEmpty then
    let rows :=
      if q.groupBy.isEmpty then 1.0 else Decimal.larger (input.rows * groupReduction) 1.0
    m.filtered q.having <|
      .aggregate q.groupBy.length q.aggregates.length
        ⟨m.aggregateCost input.rows q.groupBy.length, rows, input.width⟩ input
  else input

/-- Sorts the rows of a plan. -/
def sorted (m : CostModel) (q : Query) (input : Plan) : Plan :=
  if q.orderBy.isEmpty then input
  else .sort q.orderBy.length ⟨m.sortCost input.rows, input.rows, input.width⟩ input

/-- Hands on no more rows than the limit. -/
def limited (q : Query) (input : Plan) : Plan :=
  match q.limit with
  | some n => .limit n ⟨0.0, Decimal.smaller input.rows (Decimal.ofNat n), input.width⟩ input
  | none => input

/-- The plan of a query. -/
def plan (m : CostModel) (algorithm : JoinAlgorithm) (q : Query) : Plan :=
  let base := m.accessPath q.source (q.localFilters q.source)
  let rows := m.filtered q.residualFilters (q.joins.foldl (m.joined algorithm q) base)
  limited q (m.sorted q (m.grouped q rows))

/-- The cost of the plan of a query. -/
def planCost (m : CostModel) (q : Query) : Float :=
  (m.plan .nestedLoop q).totalCost

end CostModel

end AskSql
