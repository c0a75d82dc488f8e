import AskSql.JoinOrder.Graph
import AskSql.Plan.Build

/-!
# The cheapest order of the joins

A query with few joins is planned in every order of its tables, unless there are more orders than
may be tried.  A query with many joins is planned in one order, which starts with the table of the
fewest rows and goes on with the table of the fewest rows that can be joined.  Another order is
taken only if its plan is cheaper.
-/

namespace AskSql

/-- What came of the search for a cheaper order. -/
inductive JoinSearch where
  | reordered (query : Query) (cost : Float) (evaluated : Nat)
  /-- No order that was tried is cheaper. -/
  | unchanged (evaluated : Nat)
  /-- There are more orders than may be tried. -/
  | degraded (evaluated : Nat)
  /-- There is nothing to reorder. -/
  | skipped

namespace Query

/-- The rows of a table that its own conditions leave over. -/
def filteredRows (m : CostModel) (q : Query) (t : Nat) : Float :=
  let table := q.tableAt t
  let own := (q.filters ++ q.joinConditions).filter fun c =>
    c.singleTable? == some (Text.lower table)
  m.tableRows table * combinedSelectivity own

/-- A table comes before another: it has fewer rows, or as many and the smaller name. -/
def precedes (m : CostModel) (q : Query) (a b : Nat) : Bool :=
  let x := q.filteredRows m a
  let y := q.filteredRows m b
  x < y || (x == y && Text.lower (q.tableAt a) < Text.lower (q.tableAt b))

/-- The first of some tables. -/
def foremost? (m : CostModel) (q : Query) : List Nat → Option Nat
  | [] => none
  | t :: ts => some (ts.foldl (fun best t => if q.precedes m t best then t else best) t)

/-- Places the foremost table that can be joined, `n` times. -/
def greedyFrom? (m : CostModel) (q : Query) : Nat → List Nat → Option (List Nat)
  | 0, placed => some placed
  | n + 1, placed =>
    match q.foremost? m (q.nextTables placed) with
    | some t => q.greedyFrom? m n (placed ++ [t])
    | none => none

/-- The order that places the foremost table each time; the order of the query where some table
cannot be reached. -/
def greedyOrder (m : CostModel) (q : Query) : List Nat :=
  (q.greedyFrom? m q.tables.length []).getD q.inputOrder

/-- How far the search has come. -/
structure SearchState where
  evaluated : Nat := 0
  best : Option (Query × Float) := none

/-- The better of the best order so far and another one. -/
def better (best : Option (Query × Float)) (candidate : Query) (cost : Float) :
    Option (Query × Float) :=
  match best with
  | some (q, c) => if cost < c then some (candidate, cost) else some (q, c)
  | none => some (candidate, cost)

/-- Tries an order, unless enough have been tried. -/
def tryOrder (m : CostModel) (q : Query) (s : SearchState) (order : List Nat) :
    SearchState × Bool :=
  if m.settings.maxPermutations ≤ s.evaluated then (s, false)
  else
    match q.reordered? order with
    | some candidate =>
      (⟨s.evaluated + 1, better s.best candidate (m.planCost candidate)⟩, true)
    | none => (⟨s.evaluated + 1, s.best⟩, true)

/-- The search through all orders. -/
def searchAll (m : CostModel) (q : Query) : JoinSearch :=
  match q.foldOrders (q.tryOrder m) {} with
  | (s, false) => .degraded s.evaluated
  | (s, true) =>
    match s.best with
    | some (candidate, cost) =>
      if cost < m.planCost q then .reordered candidate cost s.evaluated
      else .unchanged s.evaluated
    | none => .unchanged s.evaluated

/-- The search that tries one order. -/
def searchGreedily (m : CostModel) (q : Query) : JoinSearch :=
  match q.reordered? (q.greedyOrder m) with
  | some candidate =>
    let cost := m.planCost candidate
    if cost < m.planCost q then .reordered candidate cost 1 else .unchanged 1
  | none => .unchanged 0

/-- The search for a cheaper order. -/
def searchJoins (m : CostModel) (q : Query) : JoinSearch :=
  if !q.isReorderable then .skipped
  else if q.joins.length < m.settings.maxExhaustiveJoins then q.searchAll m
  else q.searchGreedily m

/-- Notes an order other than that of the query; goes on while there are too few, and while more
may be looked at. -/
def noteAlternative (m : CostModel) (q : Query) (limit : Nat)
    (s : List (Query × Float) × Nat) (order : List Nat) : (List (Query × Float) × Nat) × Bool :=
  let found :=
    if order == q.inputOrder then s.1
    else
      match q.reordered? order with
      | some candidate => s.1 ++ [(candidate, m.planCost candidate)]
      | none => s.1
  let seen := s.2 + 1
  ((found, seen), decide (found.length < limit) && decide (seen < m.settings.maxPermutations))

/-- Some orders other than that of the query, with their costs. -/
def alternativeOrders (m : CostModel) (q : Query) (limit : Nat) : List (Query × Float) :=
  if q.isReorderable then (q.foldOrders (q.noteAlternative m limit) ([], 0)).1.1 else []

end Query

end AskSql
