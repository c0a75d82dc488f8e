import AskSql.Optimizer.Basic

/-!
# Results of the optimizer in words

`Optimized.report` gives the costs, the steps that were taken, what else could be done, and the
plan.
-/

namespace AskSql

/-- The word for a kind of step. -/
def OptimizationKind.name : OptimizationKind → String
  | groupByCompletion => "GroupByCompletion"
  | groupByDedup => "GroupByDedup"
  | constantFolding => "ConstantFolding"
  | predicatePushdown => "PredicatePushdown"
  | columnPruning => "ColumnPruning"
  | joinReorder => "JoinReorder"
  | indexHint => "IndexHint"
  | subqueryUnnest => "SubqueryUnnest"
  | degraded => "Degraded"

/-- The word for a kind of alternative. -/
def AlternativeKind.name : AlternativeKind → String
  | joinOrder => "JoinOrder"
  | hashJoin => "HashJoin"
  | namedSubqueries => "CteRewrite"

/-- The word for a kind of recommendation. -/
def RecommendationKind.name : RecommendationKind → String
  | createIndex => "CreateIndex"
  | refreshStatistics => "RefreshStatistics"
  | partitionByDate => "PartitionByDate"
  | materializeAggregation => "MaterializeAggregation"

/-- The line on a step. -/
def Optimization.line (o : Optimization) : String :=
  "- " ++ o.kind.name ++ ": " ++ o.description

/-- The line on an alternative. -/
def Alternative.line (a : Alternative) : String :=
  "Alternative (" ++ a.kind.name ++ "): " ++ a.description ++ " at cost " ++
    Decimal.fixed 2 a.cost

/-- The line on a recommendation. -/
def Recommendation.line (r : Recommendation) : String :=
  "Recommendation (" ++ r.kind.name ++ ") on " ++ r.table ++ ": " ++ r.reason

/-- A result in words. -/
def Optimized.report (r : Optimized) : String :=
  let source := if r.cached then ", served from cache" else ""
  let costs := "Estimated cost " ++ Decimal.fixed 2 r.cost ++ " (input plan " ++
    Decimal.fixed 2 r.costBefore ++ ")" ++ source ++ "."
  String.intercalate "\n" <|
    costs :: r.steps.map Optimization.line ++ r.alternatives.map Alternative.line ++
      r.recommendations.map Recommendation.line ++ "Plan:" :: r.plan.lines 0

end AskSql
