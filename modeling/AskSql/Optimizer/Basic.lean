import AskSql.Optimizer.Advice
import AskSql.Optimizer.Cache
import AskSql.Optimizer.Signature
import AskSql.Query.Scope
import AskSql.Reshape.Folding
import AskSql.Reshape.Pushdown
import AskSql.Reshape.Unnesting

/-!
# The optimizer

A query is reshaped in steps.  The grouping is always completed; the other steps are taken where
the settings ask for them.  The result says what was done, how the query is run, what it costs, and
what else could be done.  Results are kept for queries of the same signature.
-/

namespace AskSql

/-- A kind of step. -/
inductive OptimizationKind where
  | groupByCompletion | groupByDedup | constantFolding | predicatePushdown | columnPruning
  | joinReorder | indexHint | subqueryUnnest
  /-- The search for an order of the joins was given up. -/
  | degraded
  deriving DecidableEq, Repr

/-- A step that was taken. -/
structure Optimization where
  kind : OptimizationKind
  description : String
  deriving DecidableEq, Repr

/-- What the optimizer made of a query. -/
structure Optimized where
  query : Query
  plan : Plan
  cost : Float
  /-- The cost of the query as it was given. -/
  costBefore : Float
  steps : List Optimization
  alternatives : List Alternative
  recommendations : List Recommendation
  requiredColumns : ColumnSets
  indexHints : List IndexHint
  /-- The result was kept from an earlier request. -/
  cached : Bool := false

namespace Query

/-- A query with the steps that led to it. -/
abbrev Logged := Query × List Optimization

/-- Takes a step, unless it changes nothing. -/
def reshape (kind : OptimizationKind) (pass : Query → Reshaped) (acc : Logged) : Logged :=
  let r := pass acc.1
  match r.note with
  | some note => if r.query == acc.1 then acc else (r.query, acc.2 ++ [⟨kind, note⟩])
  | none => acc

/-- Completes the grouping. -/
def optimizeGrouping (q : Query) : Logged :=
  reshape .groupByDedup dedupGrouping (reshape .groupByCompletion completeGrouping (q, []))

/-- Notes a step that changes no query. -/
def note (kind : OptimizationKind) (description : Option String) (acc : Logged) : Logged :=
  (acc.1, acc.2 ++ (description.map fun d => (⟨kind, d⟩ : Optimization)).toList)

/-- Takes the cheapest order of the joins. -/
def optimizeJoins (m : CostModel) (acc : Logged) : Logged :=
  match acc.1.searchJoins m with
  | .reordered q cost evaluated =>
    (q, acc.2 ++ [⟨.joinReorder, "join order " ++ q.orderText ++ " (cost " ++
      Decimal.fixed 2 cost ++ ", " ++ toString evaluated ++ " orders evaluated)"⟩])
  | .degraded evaluated =>
    note .degraded (some ("join order search stopped after " ++ toString evaluated ++
      " orders; input order kept")) acc
  | .unchanged _ | .skipped => acc

/-- A note on how many columns have an index. -/
def indexNote? (hints : List IndexHint) : Option String :=
  if hints.isEmpty then none
  else some (toString (hints.countP IndexHint.indexed) ++ " of " ++ toString hints.length ++
    " filter/join/order columns are indexed")

/-- The result for a query that was reshaped. -/
def finish (m : CostModel) (given : Query) (acc : Logged) (required : ColumnSets)
    (hints : List IndexHint) (alternatives : List Alternative) : Except Failure Optimized := do
  let (q, steps) := acc
  q.validate
  let plan := m.plan .nestedLoop q
  return {
    query := q, plan, cost := plan.totalCost, costBefore := m.planCost given, steps,
    alternatives, recommendations := q.recommendations m hints, requiredColumns := required,
    indexHints := hints }

/-- Optimizes a query. -/
def optimize (m : CostModel) (q : Query) : Except Failure Optimized :=
  let grouped := q.optimizeGrouping
  if m.settings.enableAdvanced then
    let folded := reshape .constantFolding foldConstants grouped
    let pushed := reshape .predicatePushdown pushDown folded
    let required := pushed.1.requiredColumns
    let ordered := optimizeJoins m (note .columnPruning (pruningNote? m.schema required) pushed)
    let hints := ordered.1.indexHints m.schema
    let unnested :=
      reshape .subqueryUnnest (unnest m.schema) (note .indexHint (indexNote? hints) ordered)
    q.finish m unnested required hints (unnested.1.alternatives m)
  else
    q.finish m grouped [] [] []

end Query

/-- An optimizer with the results that it keeps. -/
structure Optimizer where
  settings : OptimizerSettings
  cache : Cache String Optimized

namespace Optimizer

/-- An optimizer that keeps no results yet. -/
def ofSettings (settings : OptimizerSettings) : Optimizer where
  settings
  cache := .empty settings.cacheCapacity

/-- Adds the recommendation for a query that is asked for often. -/
def advise (threshold requests : Nat) (r : Optimized) : Optimized :=
  { r with
    recommendations :=
      r.recommendations ++ (r.query.materialization? requests threshold).toList }

/-- The result for a query that was not asked for before or is not kept any more. -/
def compute (o : Optimizer) (q : Query) (s : Schema) (key : String) :
    Except Failure Optimized × Optimizer :=
  match q.optimize ⟨s, o.settings⟩ with
  | .ok r => (.ok r, { o with cache := o.cache.insert key r })
  | .error f => (.error f, o)

/-- The result for a query, and the optimizer that keeps it. -/
def optimize (o : Optimizer) (q : Query) (s : Schema) : Except Failure Optimized × Optimizer :=
  match q.validate with
  | .error f => (.error f, o)
  | .ok () =>
    let key := q.signature s
    let (requests, cache) := o.cache.record key
    let (found, cache) := cache.get? key
    let o := { o with cache }
    let (result, o) : Except Failure Optimized × Optimizer := match found with
      | some r => (.ok { r with cached := true }, o)
      | none => o.compute q s key
    (result.map (advise o.settings.frequentQueryThreshold requests), o)

/-- Forgets all results. -/
def clear (o : Optimizer) : Optimizer :=
  { o with cache := o.cache.clear }

end Optimizer

end AskSql
