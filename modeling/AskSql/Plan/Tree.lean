import AskSql.Decimal.Notation
import AskSql.Query.Expression

/-!
# Plans

A plan says how the rows of a query are come by.  Its leaves read tables, and every other step
works on the rows of the steps below it.  Each step carries the estimate of its own cost and of the
rows that it hands on.
-/

namespace AskSql

/-- How the rows of two sides are matched. -/
inductive JoinAlgorithm where
  | nestedLoop | hash
  deriving DecidableEq, Repr

/-- The estimate of a step. -/
structure Estimate where
  /-- The cost of the step alone. -/
  cost : Float
  /-- The number of rows that it hands on. -/
  rows : Float
  /-- The size in bytes of such a row. -/
  width : Nat
  deriving Repr

/-- A plan. -/
inductive Plan where
  | scan (table : String) (estimate : Estimate)
  | indexScan (table column : String) (estimate : Estimate)
  | filter (predicates : Nat) (selectivity : Float) (estimate : Estimate) (input : Plan)
  | join (table : String) (kind : JoinKind) (algorithm : JoinAlgorithm) (estimate : Estimate)
      (left right : Plan)
  | aggregate (groupColumns aggregates : Nat) (estimate : Estimate) (input : Plan)
  | sort (keys : Nat) (estimate : Estimate) (input : Plan)
  | limit (count : Nat) (estimate : Estimate) (input : Plan)
  deriving Repr

namespace Plan

/-- The estimate of the topmost step. -/
def estimate : Plan → Estimate
  | scan _ e | indexScan _ _ e | filter _ _ e _ | join _ _ _ e _ _ | aggregate _ _ e _
  | sort _ e _ | limit _ e _ => e

/-- The number of rows that the plan hands on. -/
def rows (p : Plan) : Float :=
  p.estimate.rows

/-- The size in bytes of a row that the plan hands on. -/
def width (p : Plan) : Nat :=
  p.estimate.width

/-- The cost of all steps. -/
def totalCost : Plan → Float
  | scan _ e | indexScan _ _ e => e.cost
  | join _ _ _ e left right => e.cost + (left.totalCost + right.totalCost)
  | filter _ _ e input | aggregate _ _ e input | sort _ e input | limit _ e input =>
    e.cost + input.totalCost

/-- The number of steps. -/
def size : Plan → Nat
  | scan .. | indexScan .. => 1
  | join _ _ _ _ left right => 1 + left.size + right.size
  | filter _ _ _ input | aggregate _ _ _ input | sort _ _ input | limit _ _ input =>
    1 + input.size

/-- Some table is read by an index. -/
def usesIndex : Plan → Bool
  | scan .. => false
  | indexScan .. => true
  | join _ _ _ _ left right => left.usesIndex || right.usesIndex
  | filter _ _ _ input | aggregate _ _ _ input | sort _ _ input | limit _ _ input =>
    input.usesIndex

/-- The tables that are read, from left to right. -/
def tables : Plan → List String
  | scan table _ | indexScan table _ _ => [table]
  | join _ _ _ _ left right => left.tables ++ right.tables
  | filter _ _ _ input | aggregate _ _ _ input | sort _ _ input | limit _ _ input =>
    input.tables

/-- The word for a way of matching rows. -/
def algorithmWord : JoinAlgorithm → String
  | .nestedLoop => "NestedLoop"
  | .hash => "Hash"

/-- The word for a kind of join. -/
def kindWord : JoinKind → String
  | .inner => "Inner"
  | .left => "Left"

/-- The topmost step in words. -/
def label : Plan → String
  | scan table _ => "Scan " ++ table
  | indexScan table column _ => "IndexScan " ++ table ++ " using " ++ column
  | filter predicates selectivity _ _ =>
    "Filter (" ++ toString predicates ++ " predicates, selectivity " ++
      Decimal.fixed 3 selectivity ++ ")"
  | join table kind algorithm _ _ _ =>
    algorithmWord algorithm ++ kindWord kind ++ "Join " ++ table
  | aggregate groupColumns aggregates _ _ =>
    "Aggregate (" ++ toString groupColumns ++ " keys, " ++ toString aggregates ++ " aggregates)"
  | sort keys _ _ => "Sort (" ++ toString keys ++ " keys)"
  | limit count _ _ => "Limit " ++ toString count

/-- The line for the topmost step, at a depth. -/
def line (depth : Nat) (p : Plan) : String :=
  let e := p.estimate
  String.ofList (List.replicate (2 * depth) ' ') ++ p.label ++ " (cost=" ++
    Decimal.fixed 2 e.cost ++ " rows=" ++ Decimal.fixed 0 e.rows ++ " width=" ++
    toString e.width ++ ")"

/-- The lines of a plan at a depth: every step stands above those that it works on, which are
indented below it. -/
def lines (depth : Nat) (p : Plan) : List String :=
  line depth p ::
    match p with
    | scan .. | indexScan .. => []
    | join _ _ _ _ left right => left.lines (depth + 1) ++ right.lines (depth + 1)
    | filter _ _ _ input | aggregate _ _ _ input | sort _ _ input | limit _ _ input =>
      input.lines (depth + 1)

/-- A plan in words. -/
def render (p : Plan) : String :=
  String.join ((p.lines 0).map (· ++ "\n"))

end Plan

end AskSql
