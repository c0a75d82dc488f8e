import AskSql.Proofs.Optimizer.Again
import AskSql.Proofs.Optimizer.Cached

/-!
# The grouping of an optimized query

Completing a grouping and dropping double keys come first.  Together they bring the selected items
and the keys in step: every key is selected, no key stands twice, and next to an aggregate every
plain column but a star is a key (`Query.Grouped`).  No later step touches an item or a key, so the
result is in step as well, and completing or dropping once more finds nothing
(`Query.Grouped.completeGrouping_eq`, `Query.Grouped.dedupGrouping_eq`).  Items are only ever put in
between those that the query selects.

A kept result is the result for an earlier query of the same signature, and the signature shows the
selected items (`Optimizer.answer_grouped`).
-/

namespace AskSql
namespace Query

variable {q : Query} {m : CostModel}

/-! ### A grouping that is in step -/

/-- Completing finds nothing to add. -/
theorem Grouped.completeGrouping_eq (h : q.Grouped) : q.completeGrouping = ⟨q, none⟩ := by
  have hquery : q.completeGrouping.query = q := h.complete.completeGrouping
  have hnote : q.completeGrouping.note = none := by
    simp only [Query.completeGrouping, h.complete.ungrouped_eq_nil,
      h.complete.unselectedKeys_eq_nil, List.map_nil, List.append_nil]
    rfl
  calc q.completeGrouping = ⟨q.completeGrouping.query, q.completeGrouping.note⟩ := rfl
    _ = ⟨q, none⟩ := by rw [hquery, hnote]

/-- There is no double key to drop. -/
theorem Grouped.dedupGrouping_eq (h : q.Grouped) : q.dedupGrouping = ⟨q, none⟩ := by
  have hkeys : q.distinctKeys = q.groupBy := foldl_addKey_eq_append h.keys_distinct
  have hnote : q.dedupGrouping.note = none := by
    simp only [Query.dedupGrouping, hkeys, Nat.sub_self, beq_self_eq_true, if_true]
  calc q.dedupGrouping = ⟨q.dedupGrouping.query, q.dedupGrouping.note⟩ := rfl
    _ = ⟨q, none⟩ := by rw [h.dedupGrouping, hnote]

/-! ### The steps behind the grouping -/

theorem Grouped.reordered? {c : Query} {order : List Nat} (h : q.Grouped)
    (hc : q.reordered? order = some c) : c.Grouped :=
  h.congr (by rw [eq_of_reordered? hc]) (by rw [eq_of_reordered? hc])

theorem Grouped.unnest (h : q.Grouped) (s : Schema) : (q.unnest s).query.Grouped :=
  h.congr rfl rfl

/-- A grouping that is in step stays so through all steps. -/
theorem kept_grouped : Kept Grouped where
  completeGrouping h := by rwa [h.completeGrouping_eq]
  dedupGrouping h := by rwa [h.dedupGrouping_eq]
  foldConstants h := h.foldConstants
  pushDown h := h.pushDown
  reordered h hsearch := by
    obtain ⟨order, -, hc⟩ := searchJoins_reordered hsearch
    exact h.reordered? hc

theorem grouped_of_optimize {r : Optimized} (hr : q.optimize m = .ok r) : r.query.Grouped := by
  rw [optimize_eq] at hr
  split at hr
  · -- whatever the query was, it is in step before the tables are put in order
    have hordered : (q.optimizeOrder m).1.Grouped := by
      rw [optimizeOrder]
      apply kept_grouped.optimizeJoins
      rw [fst_note]
      exact q.grouped_optimizeConditions
    have hunnested : (q.optimizeSubqueries m).1.Grouped := by
      rw [optimizeSubqueries]
      apply of_reshape (R := Grouped)
      · rwa [fst_note]
      · rw [fst_note]
        exact hordered.unnest m.schema
    have hquery : r.query = (q.optimizeSubqueries m).1 := by rw [(finish_eq_ok_iff.1 hr).2]
    rwa [hquery]
  · have hquery : r.query = q.optimizeGrouping.1 := by rw [(finish_eq_ok_iff.1 hr).2]
    rw [hquery]
    exact q.grouped_optimizeGrouping

/-! ### The selected items -/

/-- Items are put in between others, which stay in order. -/
theorem sublist_insertItems (items more : List Item) : items.Sublist (insertItems items more) := by
  have hsplit : items = (items.takeWhile fun i => !i.isAggregate) ++
      items.dropWhile fun i => !i.isAggregate :=
    List.takeWhile_append_dropWhile.symm
  conv_lhs => rw [hsplit]
  exact (List.sublist_append_left _ more).append (List.Sublist.refl _)

/-- No step drops an item, or puts two of them in another order. -/
theorem kept_sublist_items (given : List Item) : Kept fun p => given.Sublist p.items where
  completeGrouping h := h.trans (sublist_insertItems _ _)
  dedupGrouping h := h
  foldConstants h := h
  pushDown h := h
  reordered h hsearch := by
    obtain ⟨order, -, hc⟩ := searchJoins_reordered hsearch
    rwa [eq_of_reordered? hc]

theorem sublist_items_of_optimize {r : Optimized} (hr : q.optimize m = .ok r) :
    q.items.Sublist r.query.items :=
  (kept_sublist_items q.items).of_optimize (fun h => h) (List.Sublist.refl _) hr

/-- Queries of the same signature select the same items. -/
theorem items_eq_of_signature_eq {p : Query} {s s' : Schema} (h : q.signature s = p.signature s') :
    q.items = p.items := by
  rw [← items_mapLiterals Literal.shown q, shown_eq_of_signature_eq h, items_mapLiterals]

end Query

namespace Optimizer

/-- Whatever the optimizer was asked for before, the items and the keys of an answer are in step, the
items of the given query are among those of the answer in the order that they had, and completing
the grouping and dropping double keys find nothing in it. -/
theorem answer_grouped (o : Optimizer) (hempty : o.cache.entries = [])
    (requests : List (Query × Schema)) (q : Query) (s : Schema) {r : Optimized}
    (hr : ((o.after requests).optimize q s).1 = .ok r) :
    r.query.Grouped ∧ q.items.Sublist r.query.items ∧ r.query.completeGrouping = ⟨r.query, none⟩ ∧
      r.query.dedupGrouping = ⟨r.query, none⟩ := by
  obtain ⟨p, s', new, hkey, hnew, hquery⟩ := exists_optimized_of_answer hempty requests hr
  have hgrouped : r.query.Grouped := by
    rw [hquery]
    exact Query.grouped_of_optimize hnew
  have hitems : q.items.Sublist r.query.items := by
    rw [Query.items_eq_of_signature_eq hkey, hquery]
    exact Query.sublist_items_of_optimize hnew
  exact ⟨hgrouped, hitems, hgrouped.completeGrouping_eq, hgrouped.dedupGrouping_eq⟩

/-- Orders counted by region and year.  The region is a key twice, in two spellings, and not
selected; the year is selected and no key. -/
def regionCounts : Query where
  source := "orders"
  items := [.column (.star "orders"), .aggregate (.countRows "orders" (some "n")),
    .column ⟨"orders", "year", some "y"⟩]
  groupBy := [⟨"orders", "region", none⟩, ⟨"ORDERS", "Region", none⟩]

/-- The year becomes a key, and the region is selected in front of the number of orders, in both of
its spellings. -/
theorem answer_grouped_regionCounts :
    (ofSettings {}).cache.entries = [] ∧
      ∃ r, (((ofSettings {}).after []).optimize regionCounts {}).1 = .ok r ∧
        r.query.items = [.column (.star "orders"), .column ⟨"orders", "region", none⟩,
          .column ⟨"ORDERS", "Region", none⟩, .aggregate (.countRows "orders" (some "n")),
          .column ⟨"orders", "year", some "y"⟩] ∧
        r.query.groupBy = [⟨"orders", "region", none⟩, ⟨"orders", "year", none⟩] ∧
        r.query.Grouped ∧ regionCounts.items.Sublist r.query.items ∧
        r.query.completeGrouping = ⟨r.query, none⟩ ∧ r.query.dedupGrouping = ⟨r.query, none⟩ := by
  have hrun : (((ofSettings {}).after []).optimize regionCounts {}).1.map (fun r =>
      decide (r.query.items = [.column (.star "orders"), .column ⟨"orders", "region", none⟩,
          .column ⟨"ORDERS", "Region", none⟩, .aggregate (.countRows "orders" (some "n")),
          .column ⟨"orders", "year", some "y"⟩] ∧
        r.query.groupBy = [⟨"orders", "region", none⟩, ⟨"orders", "year", none⟩])) = .ok true := by
    decide +kernel
  obtain ⟨r, hr, hfacts⟩ := (Failure.map_eq_ok_iff _ _ _).1 hrun
  obtain ⟨hitems, hkeys⟩ := of_decide_eq_true hfacts
  exact ⟨rfl, r, hr, hitems, hkeys, answer_grouped (ofSettings {}) rfl [] regionCounts {} hr⟩

end Optimizer
end AskSql
