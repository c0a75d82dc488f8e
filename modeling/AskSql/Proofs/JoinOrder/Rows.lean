import AskSql.Proofs.JoinOrder.Reordering
import AskSql.Proofs.Query.Rows

/-!
# Another order of the tables reads the same rows

The query that joins its tables in another order reads the same tables, takes the same edges and
tests the same conditions, though some of them earlier or later than before.  So on every database
the same combinations of rows pass (`reordered?_keeps_rows`).

The new query need not write the names of its tables as the given one does.  An edge that is turned
around brings in the table under the name that the edge has for it, and this may differ in the case
of its letters (`tables_reordered?_orderItems_ne`).
-/

namespace AskSql

section Rows

variable {ν : Type} [DecidableEq ν]

/-- Which of the two columns stands on the left does not matter. -/
theorem Join.SameEdge.ties_eq {k j : Join} (h : k.SameEdge j) (x : Combination ν) :
    k.ties x = j.ties x := by
  obtain ⟨hleft, hright⟩ | ⟨hleft, hright⟩ := h
  · rw [ties, ties, hleft, hright]
  · rw [ties, ties, hleft, hright]
    cases x.value j.left with
    | none => cases x.value j.right <;> rfl
    | some a =>
        cases x.value j.right with
        | none => rfl
        | some b => exact decide_eq_decide.2 eq_comm

theorem Join.all_ties_eq {ks js : List Join} (h : List.Forall₂ Join.SameEdge ks js)
    (x : Combination ν) : (ks.all fun k => k.ties x) = js.all fun j => j.ties x := by
  induction h with
  | nil => rfl
  | cons hhead _ ih => rw [List.all_cons, List.all_cons, hhead.ties_eq, ih]

namespace Query

/-- The tests of a combination: first all joins, then all conditions wherever they stand. -/
theorem all_accepts_and_filters (I : Meaning ν) (q : Query) (x : Combination ν) :
    ((q.joins.all fun j => j.accepts I x) && q.filters.all fun c => I.holds c x) =
      ((q.joins.all fun j => j.ties x) &&
        (q.filters ++ q.joinConditions).all fun c => I.holds c x) := by
  have hsplit : ∀ js : List Join, (js.all fun j => j.accepts I x) =
      ((js.all fun j => j.ties x) && (js.flatMap Join.conditions).all fun c => I.holds c x) := by
    intro js
    induction js with
    | nil => rfl
    | cons j js ih =>
        rw [List.all_cons, ih, Join.accepts, List.flatMap_cons, List.all_append, List.all_cons]
        ac_rfl
  rw [hsplit, List.all_append, joinConditions]
  ac_rfl

namespace Reordering

variable {q c : Query} {order : List Nat}

/-- The same combinations pass. -/
theorem survivors_eq (h : Reordering q order c) (horder : order ∈ q.orders) (db : Contents ν)
    (I : Meaning ν) : c.survivors db I = q.survivors db I := by
  obtain ⟨es, hsame, hperm⟩ := h.edges
  rw [survivors, survivors, db.bringAll_perm _ (h.tableKeys_perm horder)]
  apply Multiset.filter_congr
  intro x _
  have hties : (c.joins.all fun j => j.ties x) = q.joins.all fun j => j.ties x :=
    (Join.all_ties_eq hsame x).trans hperm.all_eq
  have hconditions : ((c.filters ++ c.joinConditions).all fun d => I.holds d x) =
      (q.filters ++ q.joinConditions).all fun d => I.holds d x :=
    h.conditions_perm.all_eq
  rw [all_accepts_and_filters, all_accepts_and_filters, hties, hconditions]

end Reordering

theorem kind_eq_inner_of_isReorderable {q : Query} (h : q.isReorderable = true) :
    ∀ j ∈ q.joins, j.kind = .inner := by
  intro j hj
  simp only [isReorderable, hasLeftJoin, Bool.and_eq_true, Bool.not_eq_true',
    List.any_eq_false, beq_iff_eq] at h
  have hkind := h.2 j hj
  cases hk : j.kind with
  | inner => rfl
  | left => exact absurd hk hkind

end Query

end Rows

namespace Query

/-- Every order of the tables of a query with inner joins gives a query that joins them in this
order, that takes every edge once and tests every condition once, none of them too early, and that
reads the same rows on every database. -/
theorem reordered?_keeps_rows {q : Query} (hvalid : q.validate = .ok ())
    (hinner : q.isReorderable = true) {order : List Nat} (horder : order ∈ q.orders) :
    ∃ c, q.reordered? order = some c ∧ Reordering q order c ∧
      ∀ (ν : Type) [DecidableEq ν] (db : Contents ν) (I : Meaning ν),
        c.survivors db I = q.survivors db I ∧ c.rows db I = q.survivors db I ∧
          (q.OnScoped → c.rows db I = q.rows db I) := by
  have hq := (validate_eq_ok_iff q).1 hvalid
  obtain ⟨c, hc, h⟩ := exists_reordering hq horder
  have hjoins := kind_eq_inner_of_isReorderable hinner
  refine ⟨c, hc, h, ?_⟩
  intro ν _ db I
  have hsame := h.survivors_eq horder db I
  have hrows : c.rows db I = q.survivors db I := by
    rw [← hsame]
    exact rows_eq_survivors db I h.kinds_inner h.left_known (h.right_new horder hq) h.on_scoped
  refine ⟨hsame, hrows, ?_⟩
  intro hon
  rw [hrows, rows_eq_survivors db I hjoins hq.left_known hq.right_new hon]

theorem reordered?_keeps_rows_romanOrders :
    romanOrders.validate = .ok () ∧ romanOrders.isReorderable = true ∧
      [1, 0] ∈ romanOrders.orders ∧
        ∃ c, romanOrders.reordered? [1, 0] = some c ∧ Reordering romanOrders [1, 0] c ∧
          ∀ (ν : Type) [DecidableEq ν] (db : Contents ν) (I : Meaning ν),
            c.survivors db I = romanOrders.survivors db I ∧
              c.rows db I = romanOrders.survivors db I ∧
                (romanOrders.OnScoped → c.rows db I = romanOrders.rows db I) :=
  have horder : [1, 0] ∈ romanOrders.orders := by decide
  ⟨validate_romanOrders, rfl, horder, reordered?_keeps_rows validate_romanOrders rfl horder⟩

/-- All items of all orders.  The join writes the name of the first table in capitals. -/
def orderItems : Query where
  source := "orders"
  items := [.column ⟨"orders", "id", none⟩]
  joins := [{ left := ⟨"ORDERS", "id", none⟩, right := ⟨"items", "order_id", none⟩ }]

/-- The tables of the new query need not be written as those of the given one: it reads `ORDERS`
where the given one reads `orders`. -/
theorem tables_reordered?_orderItems_ne :
    orderItems.validate = .ok () ∧ orderItems.isReorderable = true ∧
      [1, 0] ∈ orderItems.orders ∧
        ∃ c, orderItems.reordered? [1, 0] = some c ∧
          c.tables ≠ [1, 0].map orderItems.tableAt :=
  ⟨rfl, rfl, by decide, _, rfl, by decide⟩

end Query

end AskSql
