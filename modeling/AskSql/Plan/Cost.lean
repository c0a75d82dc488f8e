import AskSql.Decimal.Whole
import AskSql.Query.Basic
import AskSql.Schema.Basic
import AskSql.Settings.Basic

/-!
# What the steps of a plan cost

The cost of a step is computed from the number of rows that go into it.  The numbers start with the
row counts of the schema and shrink by the share of rows that a condition is taken to leave over.
-/

namespace AskSql

/-- The share of rows for which a comparison is taken to hold. -/
def Comparison.selectivity (c : Comparison) : Float :=
  match c with
  | .eq => 0.1
  | .like | .iLike => 0.25
  | .between => 0.2
  | .isIn => 0.15
  | _ => if c.isInequality then 0.33 else 0.5

/-- The least share of rows that some conditions together are taken to leave over. -/
def minSelectivity : Float := 0.001

/-- The share of rows for which all of some conditions are taken to hold. -/
def combinedSelectivity (cs : List Condition) : Float :=
  Decimal.larger (cs.foldl (fun share c => share * c.op.selectivity) 1.0) minSelectivity

/-- The size in bytes of a row of a table that the schema does not know. -/
def unknownRowWidth : Nat := 64

/-- What costs are computed from: the counts of a schema, and the cost constants. -/
structure CostModel where
  schema : Schema
  settings : OptimizerSettings

namespace CostModel

/-- The number of rows of a table. -/
def tableRows (m : CostModel) (table : String) : Float :=
  Decimal.ofNat ((m.schema.rowCount? table).getD m.settings.defaultRowCount)

/-- The size in bytes of a row of a table. -/
def tableWidth (m : CostModel) (table : String) : Nat :=
  ((m.schema.table? table).map Table.rowWidth).getD unknownRowWidth

/-- The number of pages that the rows fill. -/
def scanCost (m : CostModel) (rows : Float) (width : Nat) : Float :=
  Decimal.ceiling (rows * Decimal.ofNat width / Decimal.ofNat (max m.settings.pageBytes 1))

/-- The height of the index, and the pages that the matching rows fill. -/
def indexScanCost (m : CostModel) (rows matched : Float) (width : Nat) : Float :=
  Decimal.ceiling (Decimal.larger rows 2.0).log2 + m.scanCost matched width

/-- The cost of testing some conditions. -/
def filterCost (m : CostModel) (conditions : Nat) : Float :=
  Decimal.ofNat conditions * m.settings.filterCostPerCondition

/-- The cost of comparing every row of one side with every row of the other. -/
def nestedLoopCost (m : CostModel) (left right : Float) : Float :=
  left * right * m.settings.cpuCost

/-- The cost of hashing the rows of both sides. -/
def hashJoinCost (m : CostModel) (left right : Float) : Float :=
  (left + right) * m.settings.cpuCost * m.settings.hashJoinFactor

/-- The cost of grouping rows; no key at all costs as much as one. -/
def aggregateCost (m : CostModel) (rows : Float) (groupColumns : Nat) : Float :=
  rows * Decimal.ofNat (max groupColumns 1) * m.settings.cpuCost

/-- The cost of sorting rows. -/
def sortCost (m : CostModel) (rows : Float) : Float :=
  if rows ≤ 1.0 then 0.0 else rows * rows.log2 * m.settings.cpuCost

/-- The number of joined rows: a join on keys keeps the rows of its larger side. -/
def joinRows (left right : Float) : Float :=
  Decimal.larger left right

end CostModel

end AskSql
