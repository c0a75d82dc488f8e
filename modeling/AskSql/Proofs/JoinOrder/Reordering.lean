import AskSql.Proofs.JoinOrder.Walk
import AskSql.Proofs.Reshape.Scope
import Mathlib.Data.Nat.PSub

/-!
# The query that joins its tables in another order

`Reordering q order c` says what becomes of a query `q` whose tables are joined in an order: which
tables the new query `c` reads and in which order, which edges it takes, and where the conditions
behind joins go.  `exists_reordering` shows that every order gives such a query, and
`Sound.reordered?` that it is as well scoped as the given one.
-/

namespace AskSql
namespace Query

/-- What the query `c` is that joins the tables of `q` in an order. -/
structure Reordering (q : Query) (order : List Nat) (c : Query) : Prop where
  source_eq : ∀ first, order.head? = some first → c.source = q.tableAt first
  tableKeys_eq : c.tableKeys = order.map q.keyAt
  left_known : ∀ i j, c.joins[i]? = some j → j.left.tableKey ∈ c.scopeAfter i
  kinds_inner : ∀ j ∈ c.joins, j.kind = .inner
  edges : ∃ es, List.Forall₂ Join.SameEdge c.joins es ∧ es.Perm q.joins
  conditions_perm : (c.filters ++ c.joinConditions).Perm (q.filters ++ q.joinConditions)
  on_scoped : c.OnScoped
  items_eq : c.items = q.items
  groupBy_eq : c.groupBy = q.groupBy
  having_eq : c.having = q.having
  orderBy_eq : c.orderBy = q.orderBy
  limit_eq : c.limit = q.limit
  distinct_eq : c.distinct = q.distinct

/-- Another order of the tables changes the source, the joins and the filter, and nothing else. -/
theorem eq_of_reordered? {q c : Query} {order : List Nat} (h : q.reordered? order = some c) :
    c = { q with source := c.source, joins := c.joins, filters := c.filters } := by
  cases order with
  | nil => cases h
  | cons first rest =>
      obtain ⟨ks, -, hc⟩ := Option.bind_eq_some_iff.1 h
      obtain rfl := Option.some.inj hc
      rfl

/-- Members that are told apart by some keys, each of which stands once, come to one place each:
that of their key, or that of the members without one. -/
theorem perm_filter_keys {α κ : Type} [DecidableEq κ] (f : α → Option κ) {keys : List κ}
    (hkeys : keys.Nodup) (xs : List α) (h : ∀ x ∈ xs, ∀ k, f x = some k → k ∈ keys) :
    ((xs.filter fun x => (f x).isNone) ++
      keys.flatMap fun k => xs.filter fun x => f x == some k).Perm xs := by
  induction keys generalizing xs with
  | nil =>
      have hnone : ∀ x ∈ xs, (f x).isNone = true := by
        intro x hx
        cases hf : f x with
        | none => rfl
        | some k => exact absurd (h x hx k hf) List.not_mem_nil
      rw [List.flatMap_nil, List.append_nil, List.filter_eq_self.2 hnone]
  | cons key keys ih =>
      obtain ⟨hnew, hkeys⟩ := List.nodup_cons.1 hkeys
      -- the members of the other places are those that are left without the first key
      let others := xs.filter fun x => !(f x == some key)
      have hrest := ih hkeys others (by
        intro x hx k hk
        obtain ⟨hmem, hne⟩ := List.mem_filter.1 hx
        rcases List.mem_cons.1 (h x hmem k hk) with rfl | hk'
        · simp [hk] at hne
        · exact hk')
      have hnone : (others.filter fun x => (f x).isNone) = xs.filter fun x => (f x).isNone := by
        rw [List.filter_filter]
        refine List.filter_congr fun x _ => ?_
        cases f x <;> simp
      have hplaces : (keys.flatMap fun k => others.filter fun x => f x == some k) =
          keys.flatMap fun k => xs.filter fun x => f x == some k := by
        refine List.flatMap_congr fun k hk => ?_
        rw [List.filter_filter]
        refine List.filter_congr fun x _ => ?_
        have hne : k ≠ key := fun heq => hnew (heq ▸ hk)
        by_cases hx : f x = some k
        · simp [hx, hne]
        · simp [hx]
      rw [hnone, hplaces] at hrest
      rw [List.flatMap_cons]
      refine (List.perm_append_comm_assoc _ _ _).trans ?_
      exact (hrest.append_left _).trans (List.filter_append_perm _ _)

theorem flatMap_conditions_mapIdx (g : Nat → List Condition) (ks : List Join) :
    (ks.mapIdx fun i k => { k with conditions := g i }).flatMap Join.conditions =
      (List.range ks.length).flatMap g := by
  rw [List.mapIdx_eq_zipIdx_map, List.flatMap_map, List.range_eq_range',
    ← List.zipIdx_map_snd 0 ks, List.flatMap_map]

theorem forall₂_sameEdge_mapIdx (g : Nat → List Condition) {ks es : List Join}
    (h : List.Forall₂ Join.SameEdge ks es) :
    List.Forall₂ Join.SameEdge (ks.mapIdx fun i k => { k with conditions := g i }) es := by
  induction h generalizing g with
  | nil => exact .nil
  | cons hhead _ ih =>
      rw [List.mapIdx_cons]
      exact .cons hhead (ih fun i => g (i + 1))

/-- The joins after which all tables of a condition are there. -/
theorem scopeDepth?_spec {q : Query} {order : List Nat} {c : Condition} {i : Nat}
    (h : q.scopeDepth? order c = some i) :
    i < order.length ∧ ∀ r ∈ c.references, r.tableKey ∈ (order.take (i + 1)).map q.keyAt := by
  have hrange := List.mem_range.1 (List.mem_of_find?_eq_some h)
  have hall := List.find?_some h
  simp only [List.all_eq_true, placesTable_iff] at hall
  refine ⟨hrange, fun r hr => ?_⟩
  have hplaced := hall r.tableKey (Condition.mem_tables.2 ⟨r, hr, rfl⟩)
  rwa [Reference.tableKey, Text.lower_lower] at hplaced

/-- The conditions behind joins, sorted by where they go. -/
theorem conditions_perm_of_scopeDepth? (q : Query) (first : Nat) (rest : List Nat) :
    (q.joinConditions.filter (fun c => (q.scopeDepth? (first :: rest) c).getD 0 == 0) ++
      (List.range rest.length).flatMap fun i =>
        q.joinConditions.filter fun c => q.scopeDepth? (first :: rest) c == some (i + 1)).Perm
      q.joinConditions := by
  -- the join behind which a condition goes, if it does not go into the filter
  let place (c : Condition) : Option Nat :=
    (q.scopeDepth? (first :: rest) c).bind Nat.ppred
  have hfilter : ∀ c, ((q.scopeDepth? (first :: rest) c).getD 0 == 0) = (place c).isNone := by
    intro c
    rcases h : q.scopeDepth? (first :: rest) c with _ | _ | i <;> simp [place, h]
  have hbehind : ∀ i c, (q.scopeDepth? (first :: rest) c == some (i + 1)) =
      (place c == some i) := by
    intro i c
    rcases h : q.scopeDepth? (first :: rest) c with _ | _ | k <;> simp [place, h]
  simp only [hfilter, hbehind]
  refine perm_filter_keys place List.nodup_range _ fun c _ i hi => ?_
  have hdepth : q.scopeDepth? (first :: rest) c = some (i + 1) := by
    simpa [hi] using hbehind i c
  have hlt := (scopeDepth?_spec hdepth).1
  exact List.mem_range.2 (by simpa using hlt)

/-- A walk through all tables gives a query that joins the tables along it. -/
theorem Walk.reordering {q : Query} {first : Nat} {rest : List Nat} {ks : List Join}
    (h : Walk q [first] rest ks) (hq : q.WellScoped) (hfirst : first < q.tables.length)
    (hlength : rest.length = q.joins.length) :
    ∃ c, q.reordered? (first :: rest) = some c ∧ Reordering q (first :: rest) c := by
  let behind (i : Nat) : List Condition :=
    q.joinConditions.filter fun c => q.scopeDepth? (first :: rest) c == some (i + 1)
  let inFilter : List Condition :=
    q.joinConditions.filter fun c => (q.scopeDepth? (first :: rest) c).getD 0 == 0
  let joins : List Join := ks.mapIdx fun i k => { k with conditions := behind i }
  let c : Query := { q with
    source := q.tableAt first, joins := joins, filters := q.filters ++ inFilter }
  have hc : q.reordered? (first :: rest) = some c := by
    simp [reordered?, h.joinsAlong?, c, joins, behind, inFilter]
  have hget : ∀ (i : Nat) (j : Join), c.joins[i]? = some j →
      ∃ k : Join, ks[i]? = some k ∧ j = { k with conditions := behind i } := by
    intro i j hj
    have hmap : joins[i]? = some j := hj
    rw [List.getElem?_mapIdx, Option.map_eq_some_iff] at hmap
    obtain ⟨k, hk, rfl⟩ := hmap
    exact ⟨k, hk, rfl⟩
  have hright : c.joins.map (fun j => j.right.tableKey) = rest.map q.keyAt := by
    rw [← h.map_right]
    apply List.ext_getElem?
    intro i
    change (joins.map _)[i]? = _
    simp only [joins, List.getElem?_map, List.getElem?_mapIdx, Option.map_map]
    rfl
  have hscope : ∀ i, c.scopeAfter i = ((first :: rest).take (i + 1)).map q.keyAt := by
    intro i
    rw [scopeAfter, List.map_take, hright, List.take_succ_cons, List.map_cons, List.map_take]
    rfl
  refine ⟨c, hc, ?_, ?_, ?_, ?_, ?_, ?_, ?_, rfl, rfl, rfl, rfl, rfl, rfl⟩
  · intro first' hfirst'
    obtain rfl : first = first' := by simpa using hfirst'
    rfl
  · rw [← scopeAfter_length, hscope, List.take_of_length_le]
    have hcount : c.joins.length = rest.length := by
      simpa using congrArg List.length hright
    simp [hcount]
  · intro i j hj
    obtain ⟨k, hk, rfl⟩ := hget i j hj
    rw [hscope]
    simpa using h.left_mem hk
  · intro j hj
    obtain ⟨i, hi⟩ := List.mem_iff_getElem?.1 hj
    obtain ⟨k, hk, rfl⟩ := hget i j hi
    exact h.kind_eq k (List.mem_of_getElem? hk)
  · obtain ⟨es, hes, hperm⟩ := h.exists_edges hq hfirst hlength
    exact ⟨es, forall₂_sameEdge_mapIdx behind hes, hperm⟩
  · -- the conditions behind joins are shared out between the joins and the filter
    have hbehind : c.joinConditions = (List.range rest.length).flatMap behind := by
      rw [← h.length_eq]
      exact flatMap_conditions_mapIdx behind ks
    rw [hbehind]
    change ((q.filters ++ inFilter) ++ _).Perm _
    rw [List.append_assoc]
    exact (conditions_perm_of_scopeDepth? q first rest).append_left _
  · -- a condition stands behind the join after which all of its tables are there
    intro i j hj d hd r hr
    obtain ⟨k, hk, rfl⟩ := hget i j hj
    have hdepth : q.scopeDepth? (first :: rest) d = some (i + 1) := by
      simpa [behind] using (List.mem_filter.1 hd).2
    rw [hscope]
    exact (scopeDepth?_spec hdepth).2 r hr

/-- Every order gives a query that joins the tables along it. -/
theorem exists_reordering {q : Query} {order : List Nat} (hq : q.WellScoped)
    (h : order ∈ q.orders) : ∃ c, q.reordered? order = some c ∧ Reordering q order c := by
  obtain ⟨first, rest, ks, rfl, hfirst, hlength, hwalk⟩ := exists_walk_of_mem_orders h
  exact hwalk.reordering hq hfirst hlength

/-- An order lists every table once. -/
theorem perm_of_mem_orders {q : Query} {order : List Nat} (h : order ∈ q.orders) :
    order.Perm (List.range q.tables.length) := by
  obtain ⟨first, rest, ks, rfl, hfirst, hlength, hwalk⟩ := exists_walk_of_mem_orders h
  have hnodup : (first :: rest).Nodup := hwalk.nodup (List.nodup_singleton first)
  have hsubset : first :: rest ⊆ List.range q.tables.length := by
    intro t ht
    obtain rfl | ht := List.mem_cons.1 ht
    · exact List.mem_range.2 hfirst
    · exact List.mem_range.2 (hwalk.lt t ht)
  exact (hnodup.subperm hsubset).perm_of_length_le (by simp [hlength])

theorem lt_of_mem_orders {q : Query} {order : List Nat} (h : order ∈ q.orders) {i : Nat}
    (hi : i ∈ order) : i < q.tables.length :=
  List.mem_range.1 ((perm_of_mem_orders h).subset hi)

theorem tableAt_mem_tables {q : Query} {i : Nat} (hi : i < q.tables.length) :
    q.tableAt i ∈ q.tables := by
  rw [tableAt, List.getD_eq_getElem?_getD, List.getElem?_eq_getElem hi, Option.getD_some]
  exact List.getElem_mem hi

namespace Reordering

variable {q c : Query} {order : List Nat}

theorem tableKeys_perm (h : Reordering q order c) (horder : order ∈ q.orders) :
    c.tableKeys.Perm q.tableKeys := by
  rw [h.tableKeys_eq, ← map_keyAt_range]
  exact (perm_of_mem_orders horder).map q.keyAt

/-- Each join brings in a table that is not there. -/
theorem right_new (h : Reordering q order c) (horder : order ∈ q.orders) (hq : q.WellScoped) :
    ∀ i j, c.joins[i]? = some j → j.right.tableKey ∉ c.scopeAfter i := by
  intro i j hj
  have hnodup : c.tableKeys.Nodup := (h.tableKeys_perm horder).nodup_iff.2 hq.tableKeys_nodup
  have hlt : i < c.joins.length := (List.getElem?_eq_some_iff.1 hj).1
  have hsublist : (c.scopeAfter (i + 1)).Sublist c.tableKeys := by
    rw [← scopeAfter_length]
    exact ((List.take_sublist_take_left (by omega)).map _).cons_cons _
  have hpart := hsublist.nodup hnodup
  rw [scopeAfter_succ c hj, ← List.concat_eq_append, List.nodup_concat] at hpart
  exact hpart.1

end Reordering

/-- A join along an order is one of the joins of the query, maybe with its sides changed over. -/
theorem exists_sameEdge_of_joinsAlong? {q : Query} {placed ts : List Nat} {ks : List Join}
    (h : q.joinsAlong? placed ts = some ks) : ∀ k ∈ ks, ∃ j ∈ q.joins, k.SameEdge j := by
  induction ts generalizing placed ks with
  | nil =>
      obtain rfl := Option.some.inj h
      simp
  | cons t ts ih =>
      obtain ⟨k, hk, h⟩ := Option.bind_eq_some_iff.1 h
      obtain ⟨rest, hrest, h⟩ := Option.bind_eq_some_iff.1 h
      obtain rfl := Option.some.inj h
      rw [List.forall_mem_cons]
      exact ⟨(edgeTo?_spec hk).1, ih hrest⟩

/-- The query mentions nothing else with its tables in another order, and its source is the first
table of the order. -/
theorem Mentions.reordered? {P : Reference → Prop} {S : Query → Prop} {q c : Query}
    {order : List Nat} (h : q.Mentions P S) (hc : q.reordered? order = some c) :
    c.Mentions P S ∧ ∃ first ∈ order, c.source = q.tableAt first := by
  cases order with
  | nil => cases hc
  | cons first rest =>
      obtain ⟨ks, hks, hc⟩ := Option.bind_eq_some_iff.1 hc
      obtain rfl := Option.some.inj hc
      have hon : ∀ d ∈ q.joinConditions, d.Mentions P S := by
        intro d hd
        obtain ⟨j, hj, hd⟩ := List.mem_flatMap.1 hd
        exact (h.joins j hj).2.2 d hd
      refine ⟨⟨h.items, ?_, ?_, h.groupBy, h.having, h.orderBy⟩, first, List.mem_cons_self, rfl⟩
      · intro j hj
        obtain ⟨i, hi, rfl⟩ := List.mem_mapIdx.1 hj
        obtain ⟨e, he, hsame⟩ := exists_sameEdge_of_joinsAlong? hks _ (List.getElem_mem hi)
        obtain ⟨hleft, hright, -⟩ := h.joins e he
        have hconditions : ∀ d ∈ q.joinConditions.filter
            (fun c => q.scopeDepth? (first :: rest) c == some (i + 1)), d.Mentions P S :=
          fun d hd => hon d (List.mem_of_mem_filter hd)
        obtain ⟨hl, hr⟩ | ⟨hl, hr⟩ := hsame
        · exact ⟨hl ▸ hleft, hr ▸ hright, hconditions⟩
        · exact ⟨hl ▸ hright, hr ▸ hleft, hconditions⟩
      · rw [List.forall_mem_append]
        exact ⟨h.filters, fun d hd => hon d (List.mem_of_mem_filter hd)⟩

/-- The query with its tables in an order is sound if the given one is. -/
theorem Sound.reordered? {q c : Query} {order : List Nat} (h : q.Sound) (horder : order ∈ q.orders)
    (hc : q.reordered? order = some c) : c.Sound := by
  obtain ⟨c', hc', hreordering⟩ := exists_reordering h.well_scoped horder
  obtain rfl : c' = c := Option.some.inj (hc'.symm.trans hc)
  obtain ⟨hmentions, first, hfirst, hsource⟩ := h.well_scoped.mentions.reordered? hc
  obtain ⟨hrefs, hsubs⟩ := mentions_iff.1 hmentions
  have hkeys : ∀ t, t ∈ c'.tableKeys ↔ t ∈ q.tableKeys := fun t =>
    (hreordering.tableKeys_perm horder).mem_iff
  refine ⟨⟨?_, hreordering.left_known, ?_, ?_, hsubs⟩, hreordering.on_scoped, ?_⟩
  · rw [hsource]
    exact h.named _ (tableAt_mem_tables (lt_of_mem_orders horder hfirst))
  · exact hreordering.right_new horder h.well_scoped
  · exact fun x hx => (hkeys _).2 (hrefs x hx)
  · intro j hj
    obtain ⟨t, ht, hfold⟩ := List.mem_map.1 ((hkeys _).1 (right_mem_tableKeys hj))
    have hsame : Text.lower j.table = Text.lower t := hfold.symm
    rw [Text.isBlankText_eq_of_lower_eq hsame]
    exact h.named t ht

end Query
end AskSql
