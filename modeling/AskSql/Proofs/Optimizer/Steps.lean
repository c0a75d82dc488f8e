import AskSql.Optimizer.Basic
import AskSql.Proofs.Query.Scope

/-!
# The optimizer step by step

A step gives the query that its pass makes, or leaves the query as it is; which of the two does not
depend on the steps before it.  `optimize_eq` names the query after each stage: with its conditions
where they belong, with its tables in order, with its subqueries as joins.
-/

namespace AskSql
namespace Query

/-- What holds of a query and of what a pass makes of it holds after the step. -/
theorem of_reshape {R : Query → Prop} {kind : OptimizationKind} {pass : Query → Reshaped}
    {acc : Logged} (h : R acc.1) (hpass : R (pass acc.1).query) : R (reshape kind pass acc).1 := by
  unfold reshape
  dsimp only
  split
  · split
    · exact h
    · exact hpass
  · exact h

@[simp] theorem fst_note (kind : OptimizationKind) (description : Option String) (acc : Logged) :
    (note kind description acc).1 = acc.1 := rfl

theorem subset_note (kind : OptimizationKind) (description : Option String) (acc : Logged) :
    acc.2 ⊆ (note kind description acc).2 :=
  List.subset_append_left _ _

/-- What a step makes of a query does not depend on the steps before it. -/
theorem fst_optimizeJoins (m : CostModel) (acc : Logged) :
    (optimizeJoins m acc).1 = (optimizeJoins m (acc.1, [])).1 := by
  unfold optimizeJoins
  dsimp only
  split
  · rfl
  · rfl
  · rfl
  · rfl

theorem fst_reshape_eq (kind : OptimizationKind) (pass : Query → Reshaped) (acc : Logged) :
    (reshape kind pass acc).1 = (reshape kind pass (acc.1, [])).1 := by
  unfold reshape
  dsimp only
  split
  · split
    · rfl
    · rfl
  · rfl

/-- The query with its conditions folded and pushed down. -/
def optimizeConditions (q : Query) : Logged :=
  reshape .predicatePushdown pushDown (reshape .constantFolding foldConstants q.optimizeGrouping)

/-- The query with its tables in the cheapest order. -/
def optimizeOrder (m : CostModel) (q : Query) : Logged :=
  optimizeJoins m (note .columnPruning
    (pruningNote? m.schema q.optimizeConditions.1.requiredColumns) q.optimizeConditions)

/-- The query with its subqueries turned into joins. -/
def optimizeSubqueries (m : CostModel) (q : Query) : Logged :=
  reshape .subqueryUnnest (unnest m.schema)
    (note .indexHint (indexNote? ((q.optimizeOrder m).1.indexHints m.schema)) (q.optimizeOrder m))

theorem optimize_eq (m : CostModel) (q : Query) :
    q.optimize m =
      if m.settings.enableAdvanced then
        q.finish m (q.optimizeSubqueries m) q.optimizeConditions.1.requiredColumns
          ((q.optimizeOrder m).1.indexHints m.schema) ((q.optimizeSubqueries m).1.alternatives m)
      else q.finish m q.optimizeGrouping [] [] [] := rfl

theorem fst_optimizeOrder (m : CostModel) (q : Query) :
    (q.optimizeOrder m).1 = (optimizeJoins m (q.optimizeConditions.1, [])).1 := by
  rw [optimizeOrder, fst_optimizeJoins, fst_note]

theorem fst_optimizeSubqueries (m : CostModel) (q : Query) :
    (q.optimizeSubqueries m).1 =
      (reshape .subqueryUnnest (unnest m.schema) ((q.optimizeOrder m).1, [])).1 := by
  rw [optimizeSubqueries, fst_reshape_eq, fst_note]

theorem finish_eq_ok_iff {m : CostModel} {given : Query} {acc : Logged} {required : ColumnSets}
    {hints : List IndexHint} {alternatives : List Alternative} {r : Optimized} :
    finish m given acc required hints alternatives = .ok r ↔
      acc.1.validate = .ok () ∧ r = {
        query := acc.1, plan := m.plan .nestedLoop acc.1, cost := m.planCost acc.1,
        costBefore := m.planCost given, steps := acc.2, alternatives,
        recommendations := acc.1.recommendations m hints, requiredColumns := required,
        indexHints := hints } := by
  obtain ⟨q, steps⟩ := acc
  rw [finish, Failure.check_eq_ok_iff]
  simp only [pure, Except.pure, Except.ok.injEq, CostModel.planCost]
  rw [eq_comm (a := r)]

/-- Every result has passed the check. -/
theorem validate_of_optimize {m : CostModel} {q : Query} {r : Optimized}
    (hr : q.optimize m = .ok r) : r.query.validate = .ok () := by
  rw [optimize_eq] at hr
  split at hr
  · obtain ⟨hvalid, hrecord⟩ := finish_eq_ok_iff.1 hr
    have hquery : r.query = (q.optimizeSubqueries m).1 := by rw [hrecord]
    rw [hquery, hvalid]
  · obtain ⟨hvalid, hrecord⟩ := finish_eq_ok_iff.1 hr
    have hquery : r.query = q.optimizeGrouping.1 := by rw [hrecord]
    rw [hquery, hvalid]

/-! ### What all passes keep -/

/-- What each pass keeps, turning subqueries into joins aside. -/
structure Kept (R : Query → Prop) : Prop where
  completeGrouping : ∀ {q : Query}, R q → R q.completeGrouping.query
  dedupGrouping : ∀ {q : Query}, R q → R q.dedupGrouping.query
  foldConstants : ∀ {q : Query}, R q → R q.foldConstants.query
  pushDown : ∀ {q : Query}, R q → R q.pushDown.query
  reordered : ∀ {m : CostModel} {q c : Query} {cost : Float} {evaluated : Nat}, R q →
    q.searchJoins m = .reordered c cost evaluated → R c

namespace Kept

variable {R : Query → Prop} (hR : Kept R) {q : Query}

include hR

theorem optimizeGrouping (h : R q) : R q.optimizeGrouping.1 := by
  have hcompleted : R (reshape .groupByCompletion Query.completeGrouping (q, [])).1 :=
    of_reshape h (hR.completeGrouping h)
  rw [Query.optimizeGrouping]
  exact of_reshape hcompleted (hR.dedupGrouping hcompleted)

theorem optimizeConditions (h : R q) : R q.optimizeConditions.1 := by
  have hgrouped := hR.optimizeGrouping h
  have hfolded : R (reshape .constantFolding Query.foldConstants q.optimizeGrouping).1 :=
    of_reshape hgrouped (hR.foldConstants hgrouped)
  rw [Query.optimizeConditions]
  exact of_reshape hfolded (hR.pushDown hfolded)

theorem optimizeJoins {acc : Logged} (h : R acc.1) (m : CostModel) :
    R (Query.optimizeJoins m acc).1 := by
  unfold Query.optimizeJoins
  split
  · next hsearch => exact hR.reordered h hsearch
  · exact h
  · exact h
  · exact h

theorem optimizeOrder (h : R q) (m : CostModel) : R (q.optimizeOrder m).1 := by
  rw [Query.optimizeOrder]
  apply hR.optimizeJoins
  rw [fst_note]
  exact hR.optimizeConditions h

theorem optimizeSubqueries {m : CostModel}
    (hunnest : ∀ {q : Query}, R q → R (q.unnest m.schema).query) (h : R q) :
    R (q.optimizeSubqueries m).1 := by
  have hordered := hR.optimizeOrder h m
  rw [Query.optimizeSubqueries]
  apply of_reshape (R := R)
  · rwa [fst_note]
  · rw [fst_note]
    exact hunnest hordered

/-- It holds of the result, whichever steps are taken. -/
theorem of_optimize {m : CostModel} (hunnest : ∀ {q : Query}, R q → R (q.unnest m.schema).query)
    (h : R q) {r : Optimized} (hr : q.optimize m = .ok r) : R r.query := by
  rw [optimize_eq] at hr
  split at hr
  · have hquery : r.query = (q.optimizeSubqueries m).1 := by rw [(finish_eq_ok_iff.1 hr).2]
    rw [hquery]
    exact hR.optimizeSubqueries hunnest h
  · have hquery : r.query = q.optimizeGrouping.1 := by rw [(finish_eq_ok_iff.1 hr).2]
    rw [hquery]
    exact hR.optimizeGrouping h

end Kept

end Query
end AskSql
