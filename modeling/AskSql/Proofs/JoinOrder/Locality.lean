import AskSql.Proofs.JoinOrder.Search
import AskSql.Proofs.Plan.Locality

/-!
# What the search for an order takes from the schema

The search compares the plans of reordered queries, and a reordered query reads the same tables.  So
two schemas that say the same about the tables of a query come to the same order
(`searchJoins_congr`), and offer the same other ones (`alternativeOrders_congr`).
-/

namespace AskSql

theorem foldUntil_congr {σ α : Type} {f g : σ → α → σ × Bool} {as : List α}
    (h : ∀ s, ∀ a ∈ as, f s a = g s a) (s : σ) : foldUntil f s as = foldUntil g s as := by
  induction as generalizing s with
  | nil => rfl
  | cons a as ih =>
      rw [foldUntil, foldUntil, h s a List.mem_cons_self]
      split
      · exact ih (fun s b hb => h s b (List.mem_cons_of_mem _ hb)) _
      · rfl

/-- Steps that are the same where something holds, if each of them keeps it. -/
theorem foldl_congr {σ α : Type} {P : σ → Prop} {f g : σ → α → σ} {as : List α}
    (h : ∀ s, P s → ∀ a ∈ as, f s a = g s a ∧ P (f s a)) {s : σ} (hs : P s) :
    as.foldl f s = as.foldl g s := by
  induction as generalizing s with
  | nil => rfl
  | cons a as ih =>
      obtain ⟨heq, hnext⟩ := h s hs a List.mem_cons_self
      rw [List.foldl_cons, List.foldl_cons, ← heq]
      exact ih (fun s hs b hb => h s hs b (List.mem_cons_of_mem _ hb)) hnext

namespace Query

variable {s s' : Schema} {o : OptimizerSettings} {S : Query → Prop}

/-- Two schemas say the same about every table that a query mentions outside of its subqueries, and
the subqueries are `S`. -/
structure SameTables (s s' : Schema) (S : Query → Prop) (q : Query) : Prop where
  source : s.SameTable s' q.source
  mentions : q.Mentions (fun r => s.SameTable s' r.table) S

theorem lt_of_mem_order {q : Query} {order : List Nat}
    (h : order ∈ q.orders ∨ order = q.inputOrder) : ∀ i ∈ order, i < q.tables.length := by
  intro i hi
  obtain h | rfl := h
  · exact lt_of_mem_orders h hi
  · exact List.mem_range.1 hi

namespace SameTables

variable {q c : Query}

theorem tables (h : q.SameTables s s' S) : ∀ t ∈ q.tables, s.SameTable s' t := by
  simp only [Query.tables, List.forall_mem_cons, List.forall_mem_map]
  exact ⟨h.source, fun j hj => (h.mentions.joins j hj).2.1⟩

theorem reordered? (h : q.SameTables s s' S) {order : List Nat}
    (horder : ∀ i ∈ order, i < q.tables.length) (hc : q.reordered? order = some c) :
    c.SameTables s s' S := by
  obtain ⟨hmentions, first, hfirst, hsource⟩ := h.mentions.reordered? hc
  refine ⟨?_, hmentions⟩
  rw [hsource]
  exact h.tables _ (tableAt_mem_tables (horder first hfirst))

/-- The plans of a query with its tables in an order cost the same. -/
theorem planCost_reordered? (h : q.SameTables s s' S) {order : List Nat}
    (horder : ∀ i ∈ order, i < q.tables.length) (hc : q.reordered? order = some c) :
    CostModel.planCost ⟨s, o⟩ c = CostModel.planCost ⟨s', o⟩ c :=
  CostModel.planCost_congr (h.reordered? horder hc).tables

end SameTables

/-! ### One order -/

theorem precedes_congr {q : Query} (h : q.SameTables s s' S) {a b : Nat}
    (ha : a < q.tables.length) (hb : b < q.tables.length) :
    precedes ⟨s, o⟩ q a b = precedes ⟨s', o⟩ q a b := by
  have hrows : ∀ t < q.tables.length, filteredRows ⟨s, o⟩ q t = filteredRows ⟨s', o⟩ q t := by
    intro t ht
    rw [filteredRows, filteredRows,
      CostModel.tableRows_congr (h.tables _ (tableAt_mem_tables ht))]
  rw [precedes, precedes, hrows a ha, hrows b hb]

theorem foremost?_congr {q : Query} (h : q.SameTables s s' S) {ts : List Nat}
    (hts : ∀ t ∈ ts, t < q.tables.length) : foremost? ⟨s, o⟩ q ts = foremost? ⟨s', o⟩ q ts := by
  have hstep : ∀ best < q.tables.length, ∀ t < q.tables.length,
      (if precedes ⟨s, o⟩ q t best then t else best) =
          (if precedes ⟨s', o⟩ q t best then t else best) ∧
        (if precedes ⟨s, o⟩ q t best then t else best) < q.tables.length := by
    intro best hbest t ht
    rw [precedes_congr h ht hbest]
    refine ⟨rfl, ?_⟩
    split
    · exact ht
    · exact hbest
  cases ts with
  | nil => rfl
  | cons t ts =>
      obtain ⟨ht, hts⟩ := List.forall_mem_cons.1 hts
      have hfold := foldl_congr (fun best hbest t hmem => hstep best hbest t (hts t hmem)) ht
      exact congrArg some hfold

theorem greedyFrom?_congr {q : Query} (h : q.SameTables s s' S) (n : Nat) (placed : List Nat) :
    greedyFrom? ⟨s, o⟩ q n placed = greedyFrom? ⟨s', o⟩ q n placed := by
  have hnext : ∀ placed, ∀ t ∈ q.nextTables placed, t < q.tables.length := fun placed t ht =>
    List.mem_range.1 (List.mem_of_mem_filter ht)
  induction n generalizing placed with
  | zero => rfl
  | succ n ih =>
      rw [greedyFrom?, greedyFrom?, foremost?_congr h (hnext placed)]
      split
      · exact ih _
      · rfl

theorem greedyOrder_congr {q : Query} (h : q.SameTables s s' S) :
    greedyOrder ⟨s, o⟩ q = greedyOrder ⟨s', o⟩ q := by
  rw [greedyOrder, greedyOrder, greedyFrom?_congr h]

theorem searchGreedily_congr {q : Query} (h : q.SameTables s s' S) :
    searchGreedily ⟨s, o⟩ q = searchGreedily ⟨s', o⟩ q := by
  rw [searchGreedily, searchGreedily, greedyOrder_congr h]
  split
  · next candidate hc =>
      rw [h.planCost_reordered? (lt_of_mem_order (q.greedyOrder_mem _)) hc,
        CostModel.planCost_congr h.tables]
  · rfl

/-! ### All orders -/

theorem tryOrder_congr {q : Query} (h : q.SameTables s s' S) (acc : SearchState)
    {order : List Nat} (horder : order ∈ q.orders) :
    tryOrder ⟨s, o⟩ q acc order = tryOrder ⟨s', o⟩ q acc order := by
  unfold tryOrder
  split
  · rfl
  · split
    · next candidate hc =>
        rw [h.planCost_reordered? (fun _ => lt_of_mem_orders horder) hc]
    · rfl

theorem searchAll_congr {q : Query} (h : q.SameTables s s' S) :
    searchAll ⟨s, o⟩ q = searchAll ⟨s', o⟩ q := by
  have hrun : q.foldOrders (tryOrder ⟨s, o⟩ q) {} = q.foldOrders (tryOrder ⟨s', o⟩ q) {} := by
    -- the walk through the orders does not depend on the schema, so it is the same list twice
    rw [foldOrders_eq, foldOrders_eq]
    exact foldUntil_congr (fun acc _ horder => tryOrder_congr h acc horder) _
  rw [searchAll, searchAll, hrun, CostModel.planCost_congr h.tables]

theorem searchJoins_congr {q : Query} (h : q.SameTables s s' S) :
    searchJoins ⟨s, o⟩ q = searchJoins ⟨s', o⟩ q := by
  rw [searchJoins, searchJoins, searchAll_congr h, searchGreedily_congr h]

theorem alternativeOrders_congr {q : Query} (h : q.SameTables s s' S) (limit : Nat) :
    alternativeOrders ⟨s, o⟩ q limit = alternativeOrders ⟨s', o⟩ q limit := by
  have hstep : ∀ acc, ∀ order ∈ q.orders,
      noteAlternative ⟨s, o⟩ q limit acc order = noteAlternative ⟨s', o⟩ q limit acc order := by
    intro acc order horder
    unfold noteAlternative
    split
    · rfl
    · split
      · next candidate hc =>
          rw [h.planCost_reordered? (fun _ => lt_of_mem_orders horder) hc]
      · rfl
  rw [alternativeOrders, alternativeOrders, foldOrders_eq, foldOrders_eq, foldUntil_congr hstep]

end Query
end AskSql
