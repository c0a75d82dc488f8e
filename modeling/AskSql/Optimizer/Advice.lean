import AskSql.JoinOrder.Search
import AskSql.Reshape.Columns

/-!
# Alternatives and recommendations

Other ways to run a query, with their costs, and what would make it cheaper.  Neither changes the
query.
-/

namespace AskSql

/-- A kind of alternative. -/
inductive AlternativeKind where
  | joinOrder | hashJoin
  /-- Each subquery is evaluated once, under a name. -/
  | namedSubqueries
  deriving DecidableEq, Repr

/-- Another way to run a query. -/
structure Alternative where
  kind : AlternativeKind
  description : String
  cost : Float
  deriving Repr

/-- A kind of recommendation. -/
inductive RecommendationKind where
  | createIndex | refreshStatistics | partitionByDate | materializeAggregation
  deriving DecidableEq, Repr

/-- What would make a query cheaper. -/
structure Recommendation where
  kind : RecommendationKind
  table : String
  columns : List String := []
  reason : String
  deriving DecidableEq, Repr

/-- The number of other orders that are offered. -/
def maxOrderAlternatives : Nat := 3

/-- The word for the use of an index. -/
def IndexUse.name : IndexUse → String
  | filter => "Filter"
  | join => "Join"
  | order => "Order"

namespace Query

/-- The tables in the order in which they are joined. -/
def orderText (q : Query) : String :=
  String.intercalate " -> " q.tables

/-- The subqueries in the conditions of a query. -/
def subqueries (q : Query) : List Query :=
  q.conditions.filterMap fun c => c.rhs.subquery?

/-- The query without the conditions of its filters that ask a subquery. -/
def withoutSubqueries (q : Query) : Query :=
  { q with
    filters := q.filters.filter fun c => c.rhs.subquery?.isNone
    having := q.having.filter fun c => c.rhs.subquery?.isNone }

/-- Other orders of the joins. -/
def orderAlternatives (m : CostModel) (q : Query) : List Alternative :=
  (q.alternativeOrders m maxOrderAlternatives).map fun (candidate, cost) =>
    ⟨.joinOrder, "join order " ++ candidate.orderText, cost⟩

/-- All joins by hashing. -/
def hashAlternative? (m : CostModel) (q : Query) : Option Alternative :=
  if q.joins.isEmpty then none
  else some ⟨.hashJoin, "hash joins over " ++ String.intercalate ", " q.tables,
    (m.plan .hash q).totalCost⟩

/-- Each subquery evaluated once. -/
def subqueryAlternative? (m : CostModel) (q : Query) : Option Alternative :=
  if q.subqueries.isEmpty then none
  else
    let outer := m.planCost q.withoutSubqueries
    some ⟨.namedSubqueries,
      "materialize subqueries over " ++ String.intercalate ", " (q.subqueries.map Query.source) ++
        " as CTEs",
      q.subqueries.foldl (fun cost sub => cost + m.planCost sub) outer⟩

/-- Other ways to run the query. -/
def alternatives (m : CostModel) (q : Query) : List Alternative :=
  q.orderAlternatives m ++ (q.hashAlternative? m).toList ++ (q.subqueryAlternative? m).toList

/-- Counts the rows of a table for which no count is known. -/
def statisticsAdvice (m : CostModel) (q : Query) : List Recommendation :=
  (q.tables.filter fun t =>
    (m.schema.table? t).isSome && (m.schema.rowCount? t).isNone).map fun t =>
      { kind := .refreshStatistics, table := t
        reason := "no row count for " ++ t ++ "; costs assume " ++
          toString m.settings.defaultRowCount ++ " rows" }

/-- The recommendation is of the kind and concerns the table. -/
def concerns (kind : RecommendationKind) (table : String) (r : Recommendation) : Bool :=
  r.kind == kind && Text.sameFold r.table table

/-- Recommends an index on a column of a large table, once. -/
def addIndexAdvice (m : CostModel) (acc : List Recommendation) (h : IndexHint) :
    List Recommendation :=
  let rows := m.tableRows h.table
  let known := acc.any fun r =>
    concerns .createIndex h.table r && r.columns.any (Text.sameFold · h.column)
  if h.indexed || rows < Decimal.ofNat m.settings.largeTableRows || known then acc
  else
    acc ++ [{ kind := .createIndex, table := h.table, columns := [h.column]
              reason := h.usage.name ++ " on unindexed column of a " ++ Decimal.fixed 0 rows ++
                "-row table" }]

/-- Recommends to divide a very large table by the dates of a column that is compared with
today, once. -/
def addPartitionAdvice (m : CostModel) (acc : List Recommendation) (c : Condition) :
    List Recommendation :=
  match c.lhs with
  | .column r =>
    let rows := m.tableRows r.table
    if c.isRelativeDate && Decimal.ofNat m.settings.partitionRows ≤ rows &&
        !acc.any (concerns .partitionByDate r.table) then
      acc ++ [{ kind := .partitionByDate, table := r.table, columns := [r.column]
                reason := "relative date filter over " ++ Decimal.fixed 0 rows ++ " rows" }]
    else acc
  | _ => acc

/-- What would make the query cheaper. -/
def recommendations (m : CostModel) (q : Query) (hints : List IndexHint) :
    List Recommendation :=
  let advice := hints.foldl (addIndexAdvice m) (q.statisticsAdvice m)
  q.conditions.foldl (addPartitionAdvice m) advice

/-- Recommends to keep the result of an aggregation that is asked for often. -/
def materialization? (q : Query) (requests threshold : Nat) : Option Recommendation :=
  if requests < threshold || !q.hasAggregates then none
  else
    some {
      kind := .materializeAggregation, table := q.source
      columns := q.groupBy.map Reference.path
      reason := "aggregation requested " ++ toString requests ++ " times" }

end Query

end AskSql
