import AskSql.JoinOrder.Graph
import AskSql.Proofs.Query.Scope
import Mathlib.Data.List.Nodup
import Mathlib.Data.List.Perm.Subperm

/-!
# Walks through the tables of a query

An order of the tables is a walk: it starts at a table and goes on to a table that an edge ties to
one that was visited before.  `Walk` describes such a walk together with the joins that it makes.
The joins of a well scoped query form a tree with an edge less than there are tables, and a walk
through all tables takes another edge with every step, so it takes every edge exactly once
(`Walk.exists_edges`).
-/

namespace AskSql

/-- Two joins on the same two columns, whichever of them stands on the left. -/
def Join.SameEdge (k j : Join) : Prop :=
  (k.left = j.left ∧ k.right = j.right) ∨ (k.left = j.right ∧ k.right = j.left)

namespace Query

/-- The table of a number, in small letters. -/
def keyAt (q : Query) (i : Nat) : String :=
  Text.lower (q.tableAt i)

/-- The joins that a walk makes when it goes on from the tables `placed` to other tables. -/
inductive Walk (q : Query) : List Nat → List Nat → List Join → Prop where
  | nil (placed : List Nat) : Walk q placed [] []
  | cons {placed ts : List Nat} {t : Nat} {k : Join} {ks : List Join}
      (hlt : t < q.tables.length) (hnew : t ∉ placed) (hedge : q.edgeTo? placed t = some k)
      (hrest : Walk q (placed ++ [t]) ts ks) : Walk q placed (t :: ts) (k :: ks)

theorem map_keyAt_range (q : Query) : (List.range q.tables.length).map q.keyAt = q.tableKeys := by
  apply List.ext_getElem?
  intro i
  simp only [tableKeys, List.getElem?_map]
  by_cases hi : i < q.tables.length
  · rw [List.getElem?_range hi, List.getElem?_eq_getElem hi]
    simp [keyAt, tableAt, List.getD_eq_getElem?_getD, List.getElem?_eq_getElem hi]
  · rw [List.getElem?_eq_none (by simpa using hi), List.getElem?_eq_none (by simpa using hi)]
    rfl

theorem placesTable_iff (q : Query) (placed : List Nat) (t : String) :
    q.placesTable placed t = true ↔ Text.lower t ∈ placed.map q.keyAt := by
  simp [placesTable, Text.sameFold_iff, keyAt]

theorem keyAt_zero (q : Query) : q.keyAt 0 = Text.lower q.source := by
  simp [keyAt, tableAt, tables]

theorem keyAt_succ {q : Query} {i : Nat} {j : Join} (h : q.joins[i]? = some j) :
    q.keyAt (i + 1) = j.right.tableKey := by
  simp [keyAt, tableAt, tables, List.getD_eq_getElem?_getD, h, Join.table, Reference.tableKey]

/-- The tables after some joins are those with the first numbers. -/
theorem scopeAfter_eq_map_keyAt (q : Query) {n : Nat} (hn : n ≤ q.joins.length) :
    q.scopeAfter n = (List.range (n + 1)).map q.keyAt := by
  induction n with
  | zero => simp [keyAt_zero]
  | succ n ih =>
      have hj : q.joins[n]? = some q.joins[n] := List.getElem?_eq_getElem (by omega)
      rw [scopeAfter_succ q hj, ih (by omega), List.range_succ (n := n + 1), List.map_append,
        List.map_singleton, keyAt_succ hj]

/-- No table of a well scoped query is joined twice. -/
theorem WellScoped.tableKeys_nodup {q : Query} (h : q.WellScoped) : q.tableKeys.Nodup := by
  rw [← scopeAfter_length]
  have hscope : ∀ n, n ≤ q.joins.length → (q.scopeAfter n).Nodup := by
    intro n
    induction n with
    | zero => simp
    | succ n ih =>
        intro hn
        have hj : q.joins[n]? = some q.joins[n] := List.getElem?_eq_getElem (by omega)
        rw [scopeAfter_succ q hj]
        rw [← List.concat_eq_append, List.nodup_concat]
        exact ⟨h.right_new n _ hj, ih (by omega)⟩
  exact hscope _ (Nat.le_refl _)

theorem WellScoped.keyAt_inj {q : Query} (h : q.WellScoped) {i k : Nat}
    (hi : i < q.tables.length) (hk : k < q.tables.length) (heq : q.keyAt i = q.keyAt k) :
    i = k := by
  have hnodup := h.tableKeys_nodup
  rw [← map_keyAt_range] at hnodup
  exact List.inj_on_of_nodup_map hnodup (List.mem_range.2 hi) (List.mem_range.2 hk) heq

/-- What an edge between a table and those that are placed looks like. -/
theorem edgeTo?_spec {q : Query} {placed : List Nat} {t : Nat} {k : Join}
    (h : q.edgeTo? placed t = some k) :
    (∃ j ∈ q.joins, k.SameEdge j) ∧ k.right.tableKey = q.keyAt t ∧
      k.left.tableKey ∈ placed.map q.keyAt ∧ k.kind = .inner := by
  obtain ⟨j, hj, hk⟩ := List.exists_of_findSome?_eq_some h
  split at hk
  · next hright =>
      simp only [Bool.and_eq_true, placesTable_iff, Text.sameFold_iff] at hright
      obtain rfl := Option.some.inj hk
      exact ⟨⟨j, hj, Or.inl ⟨rfl, rfl⟩⟩, hright.1, hright.2, rfl⟩
  · split at hk
    · next hleft =>
        simp only [Bool.and_eq_true, placesTable_iff, Text.sameFold_iff] at hleft
        obtain rfl := Option.some.inj hk
        exact ⟨⟨j, hj, Or.inr ⟨rfl, rfl⟩⟩, hleft.1, hleft.2, rfl⟩
    · cases hk

namespace Walk

variable {q : Query} {placed ts : List Nat} {ks : List Join}

theorem joinsAlong? (h : Walk q placed ts ks) : q.joinsAlong? placed ts = some ks := by
  induction h with
  | nil => rfl
  | cons hlt hnew hedge hrest ih => simp [Query.joinsAlong?, hedge, ih]

theorem length_eq (h : Walk q placed ts ks) : ks.length = ts.length := by
  induction h with
  | nil => rfl
  | cons hlt hnew hedge hrest ih => simp [ih]

theorem lt (h : Walk q placed ts ks) : ∀ t ∈ ts, t < q.tables.length := by
  induction h with
  | nil => simp
  | cons hlt hnew hedge hrest ih => exact List.forall_mem_cons.2 ⟨hlt, ih⟩

/-- A walk visits no table twice. -/
theorem nodup (h : Walk q placed ts ks) (hplaced : placed.Nodup) : (placed ++ ts).Nodup := by
  induction h with
  | nil => simpa using hplaced
  | cons hlt hnew hedge hrest ih =>
      simpa using ih (by rw [← List.concat_eq_append, List.nodup_concat]; exact ⟨hnew, hplaced⟩)

theorem not_mem (h : Walk q placed ts ks) : ∀ t ∈ ts, t ∉ placed := by
  induction h with
  | nil => simp
  | cons hlt hnew hedge hrest ih =>
      intro t ht
      obtain rfl | ht := List.mem_cons.1 ht
      · exact hnew
      · exact fun hplaced => ih t ht (List.mem_append_left _ hplaced)

/-- Each join brings in the table that the walk goes on to. -/
theorem map_right (h : Walk q placed ts ks) :
    ks.map (fun k => k.right.tableKey) = ts.map q.keyAt := by
  induction h with
  | nil => rfl
  | cons hlt hnew hedge hrest ih => simp [(edgeTo?_spec hedge).2.1, ih]

/-- Each join starts from a table that was visited before. -/
theorem left_mem (h : Walk q placed ts ks) {i : Nat} {k : Join} (hk : ks[i]? = some k) :
    k.left.tableKey ∈ (placed ++ ts.take i).map q.keyAt := by
  induction h generalizing i with
  | nil => simp at hk
  | cons hlt hnew hedge hrest ih =>
      cases i with
      | zero =>
          obtain rfl := Option.some.inj hk
          simpa using (edgeTo?_spec hedge).2.2.1
      | succ i => simpa using ih hk

theorem kind_eq (h : Walk q placed ts ks) : ∀ k ∈ ks, k.kind = .inner := by
  induction h with
  | nil => simp
  | cons hlt hnew hedge hrest ih => simpa using ⟨(edgeTo?_spec hedge).2.2.2, ih⟩

/-- The edges that a walk takes are distinct: each touches a table that is new at its step, and
both ends of the earlier ones were visited before. -/
theorem exists_distinct_edges (h : Walk q placed ts ks) (hq : q.WellScoped)
    (hplaced : ∀ p ∈ placed, p < q.tables.length) :
    ∃ es, List.Forall₂ Join.SameEdge ks es ∧ es ⊆ q.joins ∧ es.Nodup ∧
      ∀ e ∈ es, ∃ t ∈ ts, q.keyAt t = e.left.tableKey ∨ q.keyAt t = e.right.tableKey := by
  induction h with
  | nil => exact ⟨[], .nil, by simp, List.nodup_nil, by simp⟩
  | @cons placed ts t k ks hlt hnew hedge hrest ih =>
      obtain ⟨⟨j, hj, hsame⟩, hright, hleft, -⟩ := edgeTo?_spec hedge
      have hplaced' : ∀ p ∈ placed ++ [t], p < q.tables.length := by
        rw [List.forall_mem_append, List.forall_mem_singleton]
        exact ⟨hplaced, hlt⟩
      obtain ⟨es, hes, hsubset, hnodup, hends⟩ := ih hplaced'
      have hends_j : j.left.tableKey ∈ (placed ++ [t]).map q.keyAt ∧
          j.right.tableKey ∈ (placed ++ [t]).map q.keyAt := by
        have hk : k.left.tableKey ∈ (placed ++ [t]).map q.keyAt ∧
            k.right.tableKey ∈ (placed ++ [t]).map q.keyAt := by
          rw [List.map_append]
          exact ⟨List.mem_append_left _ hleft, by simp [hright]⟩
        obtain ⟨hl, hr⟩ | ⟨hl, hr⟩ := hsame
        · rwa [hl, hr] at hk
        · rw [hl, hr] at hk
          exact hk.symm
      -- a later edge touches a table that is new after this step, and both ends of `j` are not
      have hfresh : j ∉ es := by
        intro hmem
        obtain ⟨t', ht', hend⟩ := hends j hmem
        have hvisited : q.keyAt t' ∈ (placed ++ [t]).map q.keyAt := by
          obtain hend | hend := hend
          · rw [hend]
            exact hends_j.1
          · rw [hend]
            exact hends_j.2
        obtain ⟨p, hp, hkey⟩ := List.mem_map.1 hvisited
        have hpt : p = t' := hq.keyAt_inj (hplaced' p hp) (hrest.lt t' ht') hkey
        exact hrest.not_mem t' ht' (hpt ▸ hp)
      refine ⟨j :: es, .cons hsame hes, List.cons_subset.2 ⟨hj, hsubset⟩,
        List.nodup_cons.2 ⟨hfresh, hnodup⟩, ?_⟩
      intro e he
      obtain rfl | he := List.mem_cons.1 he
      · refine ⟨t, List.mem_cons_self, ?_⟩
        obtain ⟨-, hr⟩ | ⟨-, hr⟩ := hsame
        · exact Or.inr (by rw [← hr, hright])
        · exact Or.inl (by rw [← hr, hright])
      · obtain ⟨t', ht', hend⟩ := hends e he
        exact ⟨t', List.mem_cons_of_mem _ ht', hend⟩

/-- A walk through all tables takes every edge of the query exactly once. -/
theorem exists_edges {first : Nat} (h : Walk q [first] ts ks) (hq : q.WellScoped)
    (hfirst : first < q.tables.length) (hlength : ts.length = q.joins.length) :
    ∃ es, List.Forall₂ Join.SameEdge ks es ∧ es.Perm q.joins := by
  obtain ⟨es, hes, hsubset, hnodup, -⟩ := h.exists_distinct_edges hq (by simpa using hfirst)
  refine ⟨es, hes, (hnodup.subperm hsubset).perm_of_length_le (Nat.le_of_eq ?_)⟩
  rw [← hes.length_eq, h.length_eq, hlength]

end Walk

/-! ### Orders are walks -/

theorem mem_nextTables {q : Query} {placed : List Nat} (hplaced : placed ≠ []) {t : Nat} :
    t ∈ q.nextTables placed ↔
      t < q.tables.length ∧ t ∉ placed ∧ ∃ k, q.edgeTo? placed t = some k := by
  have hempty : placed.isEmpty = false := by simpa using hplaced
  simp [nextTables, hempty, Option.isSome_iff_exists]

/-- Going on for some tables is a walk. -/
theorem exists_walk_of_mem_ordersFrom {q : Query} {n : Nat} {placed order : List Nat}
    (hplaced : placed ≠ []) (h : order ∈ q.ordersFrom n placed) :
    ∃ ts ks, order = placed ++ ts ∧ ts.length = n ∧ Walk q placed ts ks := by
  induction n generalizing placed with
  | zero =>
      obtain rfl : order = placed := by simpa [ordersFrom] using h
      exact ⟨[], [], by simp, rfl, .nil _⟩
  | succ n ih =>
      simp only [ordersFrom, List.mem_flatMap] at h
      obtain ⟨t, ht, h⟩ := h
      obtain ⟨hlt, hnew, k, hedge⟩ := (mem_nextTables hplaced).1 ht
      obtain ⟨ts, ks, rfl, hlength, hwalk⟩ := ih (by simp) h
      exact ⟨t :: ts, k :: ks, by simp, by simp [hlength], .cons hlt hnew hedge hwalk⟩

/-- An order is a walk through all tables. -/
theorem exists_walk_of_mem_orders {q : Query} {order : List Nat} (h : order ∈ q.orders) :
    ∃ first rest ks, order = first :: rest ∧ first < q.tables.length ∧
      rest.length = q.joins.length ∧ Walk q [first] rest ks := by
  rw [orders, length_tables] at h
  simp only [ordersFrom, List.mem_flatMap, List.nil_append] at h
  obtain ⟨first, hfirst, h⟩ := h
  obtain ⟨ts, ks, rfl, hlength, hwalk⟩ := exists_walk_of_mem_ordersFrom (by simp) h
  refine ⟨first, ts, ks, rfl, ?_, hlength, hwalk⟩
  have hrange : first ∈ List.range q.tables.length := List.mem_of_mem_filter hfirst
  exact List.mem_range.1 hrange

end Query

end AskSql
