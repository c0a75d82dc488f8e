import AskSql.Proofs.JoinOrder.Reordering
import Mathlib.Data.List.Lex
import Mathlib.Data.Set.Card

/-!
# The orders that are gone through

An order of the tables is connected (`Query.IsOrder`) if it lists every table once and an edge ties
each table but the first to an earlier one.  The list of orders is built table by table and mentions
neither permutations nor edges to earlier tables as such; it holds the connected orders and nothing
else (`Query.mem_orders_iff`), sorted as in a dictionary (`Query.pairwise_lex_orders`).

A visitor is shown the orders of this list one after the other, up to the first at which it says
that it has seen enough.  `noting` has a visitor take down what it is shown, which changes nothing
about its answers.
-/

namespace AskSql

/-! ### Going through a list -/

section Noting

variable {σ α : Type} (f : σ → α → σ × Bool)

/-- The answers to the elements of a list, each of them given in the state that the elements before
it lead to. -/
def answers : σ → List α → List Bool
  | _, [] => []
  | s, a :: as => (f s a).2 :: answers (f s a).1 as

/-- The same steps, where each element that a step is taken on is taken down. -/
def noting (acc : σ × List α) (a : α) : (σ × List α) × Bool :=
  (((f acc.1 a).1, acc.2 ++ [a]), (f acc.1 a).2)

/-- What is taken down ends with the first element to which the answer is no; the state and the last
answer are those without taking anything down. -/
theorem foldUntil_noting (s : σ) (seen as : List α) :
    foldUntil (noting f) (s, seen) as =
      (((foldUntil f s as).1, seen ++ as.take ((answers f s as).idxOf false + 1)),
        (foldUntil f s as).2) := by
  -- along the elements, for any that were taken down before
  induction as generalizing s seen with
  | nil => simp [foldUntil, answers]
  | cons a as ih =>
      cases hstep : f s a with
      | mk t go =>
          cases go with
          | true =>
              have hfirst : (answers f s (a :: as)).idxOf false =
                  (answers f t as).idxOf false + 1 := by
                simp [answers, hstep]
              rw [hfirst, List.take_succ_cons]
              simp [foldUntil, noting, hstep, ih]
          | false =>
              have hfirst : (answers f s (a :: as)).idxOf false = 0 := by
                simp [answers, hstep]
              rw [hfirst, List.take_succ_cons, List.take_zero]
              simp [foldUntil, noting, hstep]

theorem length_answers (s : σ) (as : List α) : (answers f s as).length = as.length := by
  induction as generalizing s with
  | nil => rfl
  | cons a as ih => rw [answers, List.length_cons, ih, List.length_cons]

/-- Where every answer is yes, there is no first no. -/
theorem idxOf_answers_of_forall {s : σ} {as : List α} (h : ∀ s, ∀ a ∈ as, (f s a).2 = true) :
    (answers f s as).idxOf false = as.length := by
  have hall : ∀ s, false ∉ answers f s as := by
    induction as with
    | nil => exact fun _ => List.not_mem_nil
    | cons a as ih =>
        intro s hmem
        rcases List.mem_cons.1 hmem with hhead | hrest
        · rw [h s a List.mem_cons_self] at hhead
          cases hhead
        · exact ih (fun s b hb => h s b (List.mem_cons_of_mem a hb)) _ hrest
  rw [List.idxOf_eq_length (hall s), length_answers]

/-- The first no is where all answers before are yes. -/
theorem idxOf_answers_of_first {s : σ} {as : List α} {k : Nat}
    (hno : (answers f s as)[k]? = some false)
    (hyes : ∀ i < k, (answers f s as)[i]? = some true) : (answers f s as).idxOf false = k := by
  obtain ⟨hk, hat⟩ := List.getElem?_eq_some_iff.1 hno
  rw [List.idxOf, List.findIdx_eq hk]
  refine ⟨by rw [hat, beq_self_eq_true], fun i hi => ?_⟩
  have hearlier := hyes i hi
  rw [List.getElem?_eq_getElem (Nat.lt_trans hi hk)] at hearlier
  rw [Option.some.inj hearlier]
  rfl

end Noting

namespace Query

/-! ### Connected orders -/

/-- An edge of the query ties two of its tables, whatever the case of their names. -/
def Ties (q : Query) (a b : Nat) : Prop :=
  ∃ j ∈ q.joins, (j.left.tableKey = q.keyAt a ∧ j.right.tableKey = q.keyAt b) ∨
    (j.left.tableKey = q.keyAt b ∧ j.right.tableKey = q.keyAt a)

/-- The order lists every table once, and an edge ties each table but the first to an earlier
one. -/
structure IsOrder (q : Query) (order : List Nat) : Prop where
  perm : order.Perm (List.range q.tables.length)
  tied : ∀ i t, 0 < i → order[i]? = some t → ∃ p ∈ order.take i, q.Ties p t

variable {q : Query}

/-- There is a join that brings a table in just where an edge ties it to one that is placed. -/
theorem exists_edgeTo?_iff {placed : List Nat} {t : Nat} :
    (∃ k, q.edgeTo? placed t = some k) ↔ ∃ p ∈ placed, q.Ties p t := by
  constructor
  · rintro ⟨k, hk⟩
    obtain ⟨⟨j, hj, hsame⟩, hright, hleft, -⟩ := edgeTo?_spec hk
    obtain ⟨p, hp, hkey⟩ := List.mem_map.1 hleft
    refine ⟨p, hp, j, hj, ?_⟩
    rcases hsame with ⟨hl, hr⟩ | ⟨hl, hr⟩
    · exact .inl ⟨by rw [← hl, hkey], by rw [← hr, hright]⟩
    · exact .inr ⟨by rw [← hr, hright], by rw [← hl, hkey]⟩
  · rintro ⟨p, hp, j, hj, hends⟩
    have hplaced : q.keyAt p ∈ placed.map q.keyAt := List.mem_map_of_mem hp
    rw [← Option.isSome_iff_exists, edgeTo?, List.findSome?_isSome_iff]
    refine ⟨j, hj, ?_⟩
    rcases hends with ⟨hl, hr⟩ | ⟨hl, hr⟩
    · rw [if_pos]
      · rfl
      · rw [Bool.and_eq_true, placesTable_iff, Text.sameFold_iff]
        exact ⟨hr, by rwa [← Reference.tableKey, hl]⟩
    · -- the edge stands the other way round, unless it also stands this way
      split
      · rfl
      · rw [if_pos]
        · rfl
        · rw [Bool.and_eq_true, placesTable_iff, Text.sameFold_iff]
          exact ⟨hl, by rwa [← Reference.tableKey, hr]⟩

/-- Each table of a walk is tied to an earlier one. -/
theorem Walk.tied {placed ts : List Nat} {ks : List Join} (h : Walk q placed ts ks) {i t : Nat}
    (ht : ts[i]? = some t) : ∃ p ∈ placed ++ ts.take i, q.Ties p t := by
  induction h generalizing i with
  | nil => cases ht
  | @cons placed ts t' k ks hlt hnew hedge hrest ih =>
      cases i with
      | zero =>
          obtain rfl := Option.some.inj ht
          rw [List.take_zero, List.append_nil]
          exact exists_edgeTo?_iff.1 ⟨k, hedge⟩
      | succ i => simpa using ih ht

/-- The tables of a list can be walked through if each of them is new and tied to an earlier
one. -/
theorem exists_walk {placed ts : List Nat} (hlt : ∀ t ∈ ts, t < q.tables.length)
    (hnodup : (placed ++ ts).Nodup)
    (htied : ∀ i t, ts[i]? = some t → ∃ p ∈ placed ++ ts.take i, q.Ties p t) :
    ∃ ks, Walk q placed ts ks := by
  induction ts generalizing placed with
  | nil => exact ⟨[], .nil placed⟩
  | cons t ts ih =>
      have hnew : t ∉ placed := fun hmem =>
        (List.nodup_append.1 hnodup).2.2 t hmem t List.mem_cons_self rfl
      obtain ⟨k, hedge⟩ : ∃ k, q.edgeTo? placed t = some k :=
        exists_edgeTo?_iff.2 (by simpa using htied 0 t rfl)
      obtain ⟨ks, hrest⟩ : ∃ ks, Walk q (placed ++ [t]) ts ks := by
        apply ih
        · exact fun u hu => hlt u (List.mem_cons_of_mem t hu)
        · simpa using hnodup
        · intro i u hu
          simpa using htied (i + 1) u hu
      exact ⟨k :: ks, .cons (hlt t List.mem_cons_self) hnew hedge hrest⟩

/-- A walk is one of the ways to go on. -/
theorem Walk.mem_ordersFrom {placed ts : List Nat} {ks : List Join} (h : Walk q placed ts ks)
    (hplaced : placed ≠ []) : placed ++ ts ∈ q.ordersFrom ts.length placed := by
  induction h with
  | nil => simp [ordersFrom]
  | @cons placed ts t k ks hlt hnew hedge hrest ih =>
      have hnext : t ∈ q.nextTables placed := (mem_nextTables hplaced).2 ⟨hlt, hnew, k, hedge⟩
      refine List.mem_flatMap.2 ⟨t, hnext, ?_⟩
      simpa using ih (by simp)

/-- The list of orders holds the connected orders and nothing else. -/
theorem mem_orders_iff {order : List Nat} : order ∈ q.orders ↔ q.IsOrder order := by
  constructor
  · intro h
    refine ⟨perm_of_mem_orders h, ?_⟩
    obtain ⟨first, rest, ks, rfl, -, -, hwalk⟩ := exists_walk_of_mem_orders h
    rintro (_ | i) t hi ht
    · omega
    · simpa using hwalk.tied ht
  · rintro ⟨hperm, htied⟩
    have hlength : order.length = q.joins.length + 1 := by
      rw [hperm.length_eq, List.length_range, length_tables]
    have hlt : ∀ t ∈ order, t < q.tables.length := fun t ht =>
      List.mem_range.1 (hperm.mem_iff.1 ht)
    cases order with
    | nil => cases hlength
    | cons first rest =>
        have hnodup : ([first] ++ rest).Nodup := hperm.nodup_iff.2 List.nodup_range
        obtain ⟨hfirst, hrest⟩ := List.forall_mem_cons.1 hlt
        -- tied as its tables are, the order is a walk, and walks are listed
        obtain ⟨ks, hwalk⟩ := exists_walk hrest hnodup fun i t ht => by
          simpa using htied (i + 1) t (Nat.succ_pos i) ht
        have hcount : rest.length = q.joins.length := by simpa using hlength
        rw [orders, length_tables, ← hcount]
        refine List.mem_flatMap.2 ⟨first, ?_, hwalk.mem_ordersFrom (by simp)⟩
        simpa [nextTables] using hfirst

/-! ### The order of the list -/

theorem prefix_of_mem_ordersFrom {n : Nat} {placed order : List Nat}
    (h : order ∈ q.ordersFrom n placed) : placed <+: order := by
  induction n generalizing placed with
  | zero =>
      obtain rfl := List.mem_singleton.1 h
      exact List.prefix_refl _
  | succ n ih =>
      obtain ⟨t, -, ht⟩ := List.mem_flatMap.1 h
      exact (List.prefix_append placed [t]).trans (ih ht)

/-- Orders that go on with a smaller table come first in the dictionary. -/
theorem lex_of_prefix {placed order order' : List Nat} {t t' : Nat} (hless : t < t')
    (h : placed ++ [t] <+: order) (h' : placed ++ [t'] <+: order') :
    List.Lex (· < ·) order order' := by
  obtain ⟨rest, rfl⟩ := h
  obtain ⟨rest', rfl⟩ := h'
  rw [List.append_assoc, List.append_assoc]
  exact List.Lex.append_left _ (.rel hless) placed

theorem pairwise_lex_ordersFrom (q : Query) (n : Nat) (placed : List Nat) :
    (q.ordersFrom n placed).Pairwise (List.Lex (· < ·)) := by
  induction n generalizing placed with
  | zero => exact List.pairwise_singleton _ _
  | succ n ih =>
      have hnext : (q.nextTables placed).Pairwise (· < ·) := List.pairwise_lt_range.filter _
      rw [ordersFrom, List.pairwise_flatMap]
      refine ⟨fun t _ => ih _, hnext.imp ?_⟩
      intro t t' hless order horder order' horder'
      exact lex_of_prefix hless (prefix_of_mem_ordersFrom horder) (prefix_of_mem_ordersFrom horder')

/-- The orders are listed as in a dictionary. -/
theorem pairwise_lex_orders (q : Query) : q.orders.Pairwise (List.Lex (· < ·)) :=
  q.pairwise_lex_ordersFrom _ _

theorem nodup_orders (q : Query) : q.orders.Nodup :=
  q.pairwise_lex_orders.imp fun h => ne_of_lt h

/-- The list is as long as there are connected orders. -/
theorem ncard_isOrder (q : Query) : {order | q.IsOrder order}.ncard = q.orders.length := by
  have hset : {order | q.IsOrder order} = (q.orders.toFinset : Set (List Nat)) := by
    ext order
    rw [Set.mem_ofPred_eq, ← mem_orders_iff, List.coe_toFinset, Set.mem_ofPred_eq]
  rw [hset, Set.ncard_coe_finset, List.toFinset_card_of_nodup q.nodup_orders]

/-! ### Visitors -/

/-- The orders that a visitor is shown, one after the other. -/
def shown {σ : Type} (q : Query) (visit : σ → List Nat → σ × Bool) (s : σ) : List (List Nat) :=
  (q.foldOrders (noting visit) (s, [])).1.2

theorem shown_eq {σ : Type} (q : Query) (visit : σ → List Nat → σ × Bool) (s : σ) :
    q.shown visit s = q.orders.take ((answers visit s q.orders).idxOf false + 1) := by
  rw [shown, foldOrders_eq, foldUntil_noting, List.nil_append]

/-- The orders that are gone through are the connected ones, each once, as in a dictionary.  A
visitor that always goes on is shown all of them, and one that first stops at some call is shown
those up to this call. -/
theorem foldOrders_visits_connected (q : Query) :
    (∀ order, order ∈ q.orders ↔ q.IsOrder order) ∧ q.orders.Nodup ∧
      q.orders.Pairwise (List.Lex (· < ·)) ∧
      ∀ (σ : Type) (visit : σ → List Nat → σ × Bool) (s : σ),
        ((∀ s order, (visit s order).2 = true) → q.shown visit s = q.orders) ∧
        ∀ k, (answers visit s q.orders)[k]? = some false →
          (∀ i < k, (answers visit s q.orders)[i]? = some true) →
            q.shown visit s = q.orders.take (k + 1) := by
  refine ⟨fun _ => mem_orders_iff, q.nodup_orders, q.pairwise_lex_orders, fun σ visit s => ⟨?_, ?_⟩⟩
  · intro hon
    rw [shown_eq, idxOf_answers_of_forall visit fun s order _ => hon s order,
      List.take_of_length_le (Nat.le_succ _)]
  · intro k hno hyes
    rw [shown_eq, idxOf_answers_of_first visit hno hyes]

end Query

end AskSql
