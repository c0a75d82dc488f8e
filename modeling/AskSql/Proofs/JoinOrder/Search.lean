import AskSql.JoinOrder.Search
import AskSql.Proofs.JoinOrder.Reordering

/-!
# What the search for an order comes up with

The search tries orders and nothing else: whichever way it goes through them, exhaustively within
its budget or greedily, a query that it proposes joins the tables in one of the orders
(`searchJoins_spec`), and only one whose plan is cheaper.  The greedy walk may fall back on the
order of the query itself, which is an order as well (`inputOrder_mem_orders`).
-/

namespace AskSql

/-- What every step keeps holds however far one goes through a list. -/
theorem foldUntil_invariant {σ α : Type} (f : σ → α → σ × Bool) (I : σ → Prop) (as : List α)
    (hstep : ∀ s, I s → ∀ a ∈ as, I (f s a).1) {s : σ} (hs : I s) : I (foldUntil f s as).1 := by
  induction as generalizing s with
  | nil => exact hs
  | cons a as ih =>
      have hnext := hstep s hs a List.mem_cons_self
      have hrest : ∀ s, I s → ∀ b ∈ as, I (f s b).1 := fun s hs b hb =>
        hstep s hs b (List.mem_cons_of_mem _ hb)
      rw [foldUntil]
      cases h : f s a with
      | mk t go =>
          rw [h] at hnext
          cases go with
          | true => exact ih hrest hnext
          | false => exact hnext

namespace Query

/-- The query reads its own tables in an order. -/
theorem inputOrder_mem_orders {q : Query} (hq : q.WellScoped) : q.inputOrder ∈ q.orders := by
  have hext : ∀ n k, 0 < k → k + n = q.tables.length →
      q.inputOrder ∈ q.ordersFrom n (List.range k) := by
    intro n
    induction n with
    | zero =>
        intro k _ hk
        simp only [ordersFrom, List.mem_singleton, inputOrder]
        rw [← hk, Nat.add_zero]
    | succ n ih =>
        intro k hpos hk
        have hne : List.range k ≠ [] := by
          rw [Ne, List.range_eq_nil]
          omega
        refine List.mem_flatMap.2 ⟨k, ?_, ?_⟩
        · rw [mem_nextTables hne]
          refine ⟨by omega, by simp, ?_⟩
          -- the join that the query itself makes at this place
          obtain ⟨i, rfl⟩ : ∃ i, k = i + 1 := ⟨k - 1, by omega⟩
          have hi : i < q.joins.length := by
            rw [length_tables] at hk
            omega
          have hj : q.joins[i]? = some q.joins[i] := List.getElem?_eq_getElem hi
          have hleft := hq.left_known i _ hj
          rw [scopeAfter_eq_map_keyAt q (Nat.le_of_lt hi)] at hleft
          rw [← Option.isSome_iff_exists, edgeTo?, List.findSome?_isSome_iff]
          refine ⟨q.joins[i], List.getElem_mem hi, ?_⟩
          rw [if_pos]
          · rfl
          · rw [Bool.and_eq_true, placesTable_iff, Text.sameFold_iff]
            exact ⟨(keyAt_succ hj).symm, hleft⟩
        · rw [← List.range_succ]
          exact ih (k + 1) (by omega) (by omega)
  rw [orders, length_tables]
  refine List.mem_flatMap.2 ⟨0, ?_, hext _ 1 (by omega) (by rw [length_tables]; omega)⟩
  simp [nextTables]

theorem mem_of_foremost? {m : CostModel} {q : Query} {ts : List Nat} {t : Nat}
    (h : q.foremost? m ts = some t) : t ∈ ts := by
  have hfold : ∀ (ts : List Nat) (best : Nat),
      ts.foldl (fun best t => if q.precedes m t best then t else best) best ∈ best :: ts := by
    intro ts
    induction ts with
    | nil => simp
    | cons t ts ih =>
        intro best
        rw [List.foldl_cons]
        by_cases hprecedes : q.precedes m t best = true
        · rw [if_pos hprecedes]
          exact List.mem_cons_of_mem best (ih t)
        · rw [if_neg hprecedes]
          obtain hbest | hrest := List.mem_cons.1 (ih best)
          · rw [hbest]
            exact List.mem_cons_self
          · exact List.mem_cons_of_mem best (List.mem_cons_of_mem t hrest)
  cases ts with
  | nil => cases h
  | cons t' ts =>
      obtain rfl := Option.some.inj h
      exact hfold ts t'

theorem mem_ordersFrom_of_greedyFrom? {m : CostModel} {q : Query} {n : Nat}
    {placed order : List Nat} (h : q.greedyFrom? m n placed = some order) :
    order ∈ q.ordersFrom n placed := by
  induction n generalizing placed with
  | zero =>
      obtain rfl := Option.some.inj h
      simp [ordersFrom]
  | succ n ih =>
      rw [greedyFrom?] at h
      split at h
      · next t ht => exact List.mem_flatMap.2 ⟨t, mem_of_foremost? ht, ih h⟩
      · cases h

/-- The greedy walk takes an order, or falls back on the one that the query has. -/
theorem greedyOrder_mem (m : CostModel) (q : Query) :
    q.greedyOrder m ∈ q.orders ∨ q.greedyOrder m = q.inputOrder := by
  rw [greedyOrder]
  cases h : q.greedyFrom? m q.tables.length [] with
  | some order => exact .inl (mem_ordersFrom_of_greedyFrom? h)
  | none => exact .inr rfl

/-- The query joins the tables of `q` in one of the orders, or in the order that they have. -/
def IsReordered (q c : Query) : Prop :=
  ∃ order, (order ∈ q.orders ∨ order = q.inputOrder) ∧ q.reordered? order = some c

theorem IsReordered.exists_order {q c : Query} (h : q.IsReordered c) (hq : q.WellScoped) :
    ∃ order ∈ q.orders, q.reordered? order = some c := by
  obtain ⟨order, horder | rfl, hc⟩ := h
  · exact ⟨order, horder, hc⟩
  · exact ⟨_, inputOrder_mem_orders hq, hc⟩

/-- One order more: what holds of the best one so far and of every order that is tried, together
with the cost of its plan, holds of the best one then. -/
theorem tryOrder_best {P : Query → Float → Prop} {m : CostModel} {q : Query} {s : SearchState}
    {order : List Nat} (hnew : ∀ c, q.reordered? order = some c → P c (m.planCost c))
    (hs : ∀ c cost, s.best = some (c, cost) → P c cost) :
    ∀ c cost, (q.tryOrder m s order).1.best = some (c, cost) → P c cost := by
  intro c cost hbest
  unfold tryOrder at hbest
  split at hbest
  · exact hs c cost hbest
  · split at hbest
    · next candidate hcandidate =>
        dsimp only [better] at hbest
        split at hbest
        · next hold =>
            split at hbest
            · obtain ⟨rfl, rfl⟩ := Prod.mk.inj (Option.some.inj hbest)
              exact hnew _ hcandidate
            · obtain ⟨rfl, rfl⟩ := Prod.mk.inj (Option.some.inj hbest)
              exact hs _ _ hold
        · obtain ⟨rfl, rfl⟩ := Prod.mk.inj (Option.some.inj hbest)
          exact hnew _ hcandidate
    · exact hs c cost hbest

/-- A query that the search proposes joins the tables in one of the orders, and its plan is the
cheaper one. -/
theorem searchJoins_spec {m : CostModel} {q c : Query} {cost : Float} {evaluated : Nat}
    (h : q.searchJoins m = .reordered c cost evaluated) :
    q.IsReordered c ∧ cost = m.planCost c ∧ cost < m.planCost q := by
  unfold searchJoins at h
  split at h
  · cases h
  · split at h
    -- with few joins: whatever is best so far is made of one of the orders
    · have hbest := foldUntil_invariant (q.tryOrder m)
        (fun s : SearchState => ∀ c cost, s.best = some (c, cost) →
          q.IsReordered c ∧ cost = m.planCost c) q.orders
        (fun s hs order horder =>
          tryOrder_best (fun c hc => ⟨⟨order, .inl horder, hc⟩, rfl⟩) hs) (s := {}) (by simp)
      rw [← foldOrders_eq] at hbest
      unfold searchAll at h
      split at h
      · cases h
      · next s hs =>
          rw [hs] at hbest
          split at h
          · next candidate cost' hcandidate =>
              obtain ⟨hreordered, hcost⟩ := hbest _ _ hcandidate
              split at h
              · next hless =>
                  cases h
                  exact ⟨hreordered, hcost, hless⟩
              · cases h
          · cases h
    -- with many joins: there is the greedy order and no other
    · unfold searchGreedily at h
      split at h
      · next candidate hcandidate =>
          dsimp only at h
          split at h
          · next hless =>
              cases h
              exact ⟨⟨_, q.greedyOrder_mem m, hcandidate⟩, rfl, hless⟩
          · cases h
      · cases h

theorem searchJoins_reordered {m : CostModel} {q c : Query} {cost : Float} {evaluated : Nat}
    (h : q.searchJoins m = .reordered c cost evaluated) : q.IsReordered c :=
  (searchJoins_spec h).1

end Query

end AskSql
