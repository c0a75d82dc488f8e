import AskSql.Optimizer.Basic

/-!
# Results of the optimizer as documents

The written form of plans, of what is advised and of results as JSON documents.
-/

namespace AskSql

open Json (field fieldIfAny)

namespace Plan

/-- The name of a way of matching rows in documents. -/
def algorithmKeyword : JoinAlgorithm → String
  | .nestedLoop => "nested_loop"
  | .hash => "hash"

/-- The topmost step, named, with its parts. -/
def stepToJson (name : String) (parts : List (String × Json)) : Json :=
  .object (field "op" (.text name) ++ parts)

/-- A step with its estimate and the steps that it works on. -/
def nodeToJson (step : Json) (e : Estimate) (inputs : List Json) : Json :=
  .object (field "operator" step ++ field "cost" (.float e.cost) ++ field "rows" (.float e.rows) ++
    field "width" (.nat e.width) ++ fieldIfAny "children" id inputs)

/-- A plan as a document. -/
def toJson : Plan → Json
  | scan table e => nodeToJson (stepToJson "scan" (field "table" (.text table))) e []
  | indexScan table column e =>
    nodeToJson (stepToJson "index_scan"
      (field "table" (.text table) ++ field "column" (.text column))) e []
  | filter predicates selectivity e input =>
    nodeToJson (stepToJson "filter" (field "predicates" (.nat predicates) ++
      field "selectivity" (.float selectivity))) e [input.toJson]
  | join table kind algorithm e left right =>
    nodeToJson (stepToJson "join" (field "table" (.text table) ++
      field "kind" (.text kind.keyword) ++ field "algorithm" (.text (algorithmKeyword algorithm))))
      e [left.toJson, right.toJson]
  | aggregate groupColumns aggregates e input =>
    nodeToJson (stepToJson "aggregate" (field "group_columns" (.nat groupColumns) ++
      field "aggregates" (.nat aggregates))) e [input.toJson]
  | sort keys e input => nodeToJson (stepToJson "sort" (field "keys" (.nat keys))) e [input.toJson]
  | limit count e input =>
    nodeToJson (stepToJson "limit" (field "count" (.nat count))) e [input.toJson]

end Plan

/-- The name of a kind of step in documents. -/
def OptimizationKind.keyword : OptimizationKind → String
  | groupByCompletion => "group_by_completion"
  | groupByDedup => "group_by_dedup"
  | constantFolding => "constant_folding"
  | predicatePushdown => "predicate_pushdown"
  | columnPruning => "column_pruning"
  | joinReorder => "join_reorder"
  | indexHint => "index_hint"
  | subqueryUnnest => "subquery_unnest"
  | degraded => "degraded"

/-- The name of a kind of alternative in documents. -/
def AlternativeKind.keyword : AlternativeKind → String
  | joinOrder => "join_order"
  | hashJoin => "hash_join"
  | namedSubqueries => "cte_rewrite"

/-- The name of a kind of recommendation in documents. -/
def RecommendationKind.keyword : RecommendationKind → String
  | createIndex => "create_index"
  | refreshStatistics => "refresh_statistics"
  | partitionByDate => "partition_by_date"
  | materializeAggregation => "materialize_aggregation"

/-- The name of a use of an index in documents. -/
def IndexUse.keyword : IndexUse → String
  | filter => "filter"
  | join => "join"
  | order => "order"

/-- A step as a document. -/
def Optimization.toJson (o : Optimization) : Json :=
  .object (field "kind" (.text o.kind.keyword) ++ field "description" (.text o.description))

/-- An alternative as a document. -/
def Alternative.toJson (a : Alternative) : Json :=
  .object (field "kind" (.text a.kind.keyword) ++ field "description" (.text a.description) ++
    field "estimated_cost" (.float a.cost))

/-- A recommendation as a document. -/
def Recommendation.toJson (r : Recommendation) : Json :=
  .object (field "kind" (.text r.kind.keyword) ++ field "table" (.text r.table) ++
    fieldIfAny "columns" Json.text r.columns ++ field "reason" (.text r.reason))

/-- An index hint as a document. -/
def IndexHint.toJson (h : IndexHint) : Json :=
  .object (field "table" (.text h.table) ++ field "column" (.text h.column) ++
    field "usage" (.text h.usage.keyword) ++ field "indexed" (.bool h.indexed))

/-- Tables with their columns as a document. -/
def ColumnSets.toJson (sets : ColumnSets) : Json :=
  .object (sets.map fun (table, columns) => (table, Json.list Json.text columns))

/-- A result as a document. -/
def Optimized.toJson (r : Optimized) : Json :=
  .object (field "optimized_ir" r.query.toJson ++ field "plan" r.plan.toJson ++
    field "estimated_cost" (.float r.cost) ++ field "original_cost" (.float r.costBefore) ++
    field "optimizations" (Json.list Optimization.toJson r.steps) ++
    field "alternatives" (Json.list Alternative.toJson r.alternatives) ++
    field "recommendations" (Json.list Recommendation.toJson r.recommendations) ++
    field "required_columns" r.requiredColumns.toJson ++
    field "index_hints" (Json.list IndexHint.toJson r.indexHints) ++
    field "cached" (.bool r.cached))

/-- The figures of a store as a document. -/
def CacheStats.toJson (s : CacheStats) : Json :=
  .object (field "entries" (.nat s.entries) ++ field "capacity" (.nat s.capacity) ++
    field "hits" (.nat s.hits) ++ field "misses" (.nat s.misses) ++
    field "evictions" (.nat s.evictions) ++ field "tracked" (.nat s.tracked))

end AskSql
