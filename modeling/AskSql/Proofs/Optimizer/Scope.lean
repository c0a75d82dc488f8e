import AskSql.Proofs.JoinOrder.Search
import AskSql.Proofs.Optimizer.Steps

/-!
# The optimizer keeps the reference invariant

The optimizer checks its result once more before it hands it out.  For a query whose tables may be
joined in any order this check never fails: every step that it takes keeps the query sound,
whichever steps the settings ask for, so the result is sound as well
(`Optimizer.optimize_keeps_references`).
-/

namespace AskSql
namespace Query

theorem kept_sound : Kept Sound where
  completeGrouping h := h.completeGrouping
  dedupGrouping h := h.dedupGrouping
  foldConstants h := h.foldConstants
  pushDown h := h.pushDown
  reordered h hsearch := by
    obtain ⟨order, horder, hc⟩ := (searchJoins_reordered hsearch).exists_order h.well_scoped
    exact h.reordered? horder hc

/-- A sound query passes the last check and is what the result holds. -/
theorem Sound.finish {acc : Logged} (h : acc.1.Sound) (m : CostModel) (given : Query)
    (required : ColumnSets) (hints : List IndexHint) (alternatives : List Alternative) :
    ∃ r, Query.finish m given acc required hints alternatives = .ok r ∧ r.query.Sound := by
  obtain ⟨q, steps⟩ := acc
  have hvalid : q.validate = .ok () := q.validate_eq_ok_iff.2 h.well_scoped
  simp only [Query.finish, hvalid]
  exact ⟨_, rfl, h⟩

/-- Optimizing a sound query succeeds and gives a sound query, whichever steps are taken. -/
theorem exists_optimized {q : Query} (h : q.Sound) (m : CostModel) :
    ∃ r, q.optimize m = .ok r ∧ r.query.Sound := by
  rw [optimize_eq]
  split
  · have hsubqueries : (q.optimizeSubqueries m).1.Sound :=
      kept_sound.optimizeSubqueries (fun hp => hp.unnest m.schema) h
    exact hsubqueries.finish m q _ _ _
  · exact (kept_sound.optimizeGrouping h).finish m q [] [] []

end Query

namespace Optimizer

/-- An optimizer that keeps no results computes the result afresh. -/
theorem optimize_of_empty {o : Optimizer} (hempty : o.cache.entries = []) {q : Query} {s : Schema}
    (hvalid : q.validate = .ok ()) {r : Optimized} (hr : q.optimize ⟨s, o.settings⟩ = .ok r) :
    ∃ requests, (o.optimize q s).1 = .ok (advise o.settings.frequentQueryThreshold requests r) := by
  refine ⟨(o.cache.record (q.signature s)).1, ?_⟩
  unfold optimize
  simp only [hvalid, Cache.get?, Cache.record, hempty, List.lookup_nil, compute, hr]
  rfl

/-- A query with a tree of named tables whose conditions behind joins look back only: the optimizer
does not fail, and its result is such a query again. -/
theorem optimize_keeps_references (o : Optimizer) (hempty : o.cache.entries = []) (q : Query)
    (s : Schema) (hvalid : q.validate = .ok ())
    (hnamed : ∀ j ∈ q.joins, Text.isBlankText j.table = false) (hon : q.OnScoped) :
    ∃ r, (o.optimize q s).1 = .ok r ∧ r.query.validate = .ok () ∧ r.query.OnScoped := by
  have hq : q.Sound := ⟨q.validate_eq_ok_iff.1 hvalid, hon, hnamed⟩
  obtain ⟨r, hr, hsound⟩ := Query.exists_optimized hq ⟨s, o.settings⟩
  obtain ⟨requests, hresult⟩ := optimize_of_empty hempty hvalid hr
  exact ⟨_, hresult, (Query.validate_eq_ok_iff _).2 hsound.well_scoped, hsound.on_scoped⟩

/-- The subquery of `Query.romanOrders` becomes a join where the schema knows the key of products. -/
theorem optimize_keeps_references_romanOrders :
    Query.romanOrders.validate = .ok () ∧
      (∀ j ∈ Query.romanOrders.joins, Text.isBlankText j.table = false) ∧
      Query.romanOrders.OnScoped ∧
      ∃ r, ((ofSettings {}).optimize Query.romanOrders
          { tables := [{ name := "products", columns := [.asPrimaryKey ⟨"id", .integer, true, false,
            false, none, []⟩] }] }).1 = .ok r ∧
        r.query.validate = .ok () ∧ r.query.OnScoped :=
  ⟨Query.validate_romanOrders, by decide, Query.onScoped_romanOrders,
    optimize_keeps_references (ofSettings {}) rfl Query.romanOrders _ Query.validate_romanOrders
      (by decide) Query.onScoped_romanOrders⟩

end Optimizer

end AskSql
