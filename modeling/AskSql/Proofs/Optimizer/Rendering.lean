import AskSql.Proofs.JoinOrder.Search
import AskSql.Proofs.Optimizer.Cached
import AskSql.Proofs.Render.Expressible

/-!
# What can be written can be written when it is optimized

The optimizer knows no dialect, and yet it makes nothing of a query that a dialect has no words for
where it has words for the query (`Query.Expressible.optimize`):

* most steps move conditions about, and where a condition stands plays no part;
* the conditions that folding makes compare by `=` or `<>` with one value, which every dialect has;
* a lifted subquery brings its own conditions along, which were written before inside of it;
* the items that are added are columns, so the order finds the aggregates that it found.

A kept result is the result for an earlier query of the same signature.  Floats that a signature
does not show may have been others there, but no value decides about words
(`Optimizer.exists_render_optimized`).
-/

namespace AskSql

variable {d : Dialect}

/-- The comparison that takes the place of a list or a range can be written if that can. -/
theorem Condition.Expressible.of_narrows {c c' : Condition} (h : c.Expressible d)
    (hc : c.Narrows c') : c'.Expressible d := by
  cases hc with
  | range _ => exact expressible_iff.2 ⟨nofun, (expressible_iff.1 h).2.1, _, rfl⟩
  | isIn => exact expressible_iff.2 ⟨nofun, (expressible_iff.1 h).2.1, _, rfl⟩
  | notIn => exact expressible_iff.2 ⟨nofun, (expressible_iff.1 h).2.1, _, rfl⟩

namespace Query

/-! ### Groupings -/

/-- Columns put in between leave the selected aggregates as they are. -/
theorem aggregates_insertItems (items : List Item) (columns : List Reference) :
    (insertItems items (columns.map .column)).filterMap Item.aggregate? =
      items.filterMap Item.aggregate? := by
  have hcolumns : (columns.map Item.column).filterMap Item.aggregate? = [] := by
    rw [List.filterMap_map, List.filterMap_eq_nil_iff]
    intro c _
    rfl
  rw [insertItems, List.filterMap_append, List.filterMap_append, hcolumns, List.append_nil,
    ← List.filterMap_append, List.takeWhile_append_dropWhile]

theorem Expressible.completeGrouping {q : Query} (h : q.Expressible d) :
    q.completeGrouping.query.Expressible d where
  items := by
    intro i hi
    obtain hi | hi := mem_insertItems.1 hi
    · exact h.items i hi
    · obtain ⟨c, -, rfl⟩ := List.mem_map.1 hi
      exact ⟨_, rfl⟩
  conditions := h.conditions
  orderBy := by
    have haggregates : q.completeGrouping.query.aggregates = q.aggregates :=
      aggregates_insertItems q.items q.unselectedKeys
    rw [haggregates]
    exact h.orderBy

theorem Expressible.dedupGrouping {q : Query} (h : q.Expressible d) :
    q.dedupGrouping.query.Expressible d :=
  ⟨h.items, h.conditions, h.orderBy⟩

/-! ### Conditions on the move -/

/-- A query with the same items and the same order can be written if its conditions can. -/
theorem Expressible.of_conditions {q q' : Query} (h : q.Expressible d)
    (hitems : q'.items = q.items) (horder : q'.orderBy = q.orderBy)
    (hconditions : ∀ c ∈ q'.conditions, c.Expressible d) : q'.Expressible d where
  items := hitems ▸ h.items
  conditions := hconditions
  orderBy := by
    rw [horder, aggregates, hitems]
    exact h.orderBy

theorem forall_mem_conditions {q : Query} {Q : Condition → Prop} :
    (∀ c ∈ q.conditions, Q c) ↔
      (∀ c ∈ q.filters, Q c) ∧ (∀ c ∈ q.having, Q c) ∧ ∀ j ∈ q.joins, ∀ c ∈ j.conditions, Q c := by
  simp only [conditions, List.forall_mem_append, List.forall_mem_flatMap, and_assoc]

theorem Expressible.foldConstants {q : Query} (h : q.Expressible d) :
    q.foldConstants.query.Expressible d := by
  have hfolded : ∀ {cs : List Condition}, (∀ c ∈ cs, c.Expressible d) →
      ∀ c ∈ (Condition.foldAll cs).1, c.Expressible d := fun hcs =>
    Condition.forall_foldAll hcs fun _ _ hc hd => hc.of_narrows hd
  obtain ⟨hfilters, hhaving, hjoins⟩ := forall_mem_conditions.1 h.conditions
  refine h.of_conditions rfl rfl (forall_mem_conditions.2 ⟨hfolded hfilters, hfolded hhaving, ?_⟩)
  rw [joins_foldConstants, List.forall_mem_map]
  exact fun j hj => hfolded (hjoins j hj)

theorem Expressible.pushDown {q : Query} (h : q.Expressible d) :
    q.pushDown.query.Expressible d := by
  obtain ⟨hfilters, hhaving, hjoins⟩ := forall_mem_conditions.1 h.conditions
  refine h.of_conditions rfl rfl (forall_mem_conditions.2 ⟨?_, hhaving, ?_⟩)
  · exact fun c hc => hfilters c (List.mem_of_mem_filter hc)
  · intro j hj c hc
    obtain ⟨i, hi⟩ := List.mem_iff_getElem?.1 hj
    obtain ⟨k, hk, -, -, hon⟩ := exists_join_pushDown hi
    obtain hc | ⟨hc, -⟩ := hon c hc
    · exact hjoins k (List.mem_of_getElem? hk) c hc
    · exact hfilters c hc

theorem Expressible.reordered? {q c : Query} {order : List Nat} (h : q.Expressible d)
    (hc : q.reordered? order = some c) : c.Expressible d := by
  cases order with
  | nil => cases hc
  | cons first rest =>
      obtain ⟨ks, -, hc⟩ := Option.bind_eq_some_iff.1 hc
      obtain rfl := Option.some.inj hc
      obtain ⟨hfilters, hhaving, hjoins⟩ := forall_mem_conditions.1 h.conditions
      have hon : ∀ e ∈ q.joinConditions, e.Expressible d := by
        rw [joinConditions, List.forall_mem_flatMap]
        exact hjoins
      refine h.of_conditions rfl rfl (forall_mem_conditions.2 ⟨?_, hhaving, ?_⟩)
      · rw [List.forall_mem_append]
        exact ⟨hfilters, fun e he => hon e (List.mem_of_mem_filter he)⟩
      · intro j hj e he
        obtain ⟨i, hi, rfl⟩ := List.mem_mapIdx.1 hj
        exact hon e (List.mem_of_mem_filter he)

/-- The conditions of a lifted subquery were written inside of it before. -/
theorem Expressible.unnest {q : Query} (h : q.Expressible d) (s : Schema) :
    (q.unnest s).query.Expressible d := by
  refine unnest_induction s h ?_
  intro joins kept rest c j hacc hj
  obtain ⟨outer, key, sub, rfl, -, -, -, rfl⟩ := Condition.unnested?_eq_some hj
  obtain ⟨hfilters, hhaving, hjoins⟩ := forall_mem_conditions.1 hacc.conditions
  have hold : ∀ c ∈ kept ++ _ :: rest, c.Expressible d := hfilters
  rw [List.forall_mem_append, List.forall_mem_cons] at hold
  obtain ⟨hkept, hc, hrest⟩ := hold
  obtain ⟨hlifted, -, -⟩ := forall_mem_conditions.1 hc.subquery.conditions
  refine hacc.of_conditions rfl rfl (forall_mem_conditions.2 ⟨?_, hhaving, ?_⟩)
  · exact List.forall_mem_append.2 ⟨hkept, hrest⟩
  · exact List.forall_mem_append.2 ⟨hjoins, List.forall_mem_singleton.2 hlifted⟩

/-! ### The optimizer -/

theorem kept_expressible (d : Dialect) : Kept (Query.Expressible d) where
  completeGrouping h := h.completeGrouping
  dedupGrouping h := h.dedupGrouping
  foldConstants h := h.foldConstants
  pushDown h := h.pushDown
  reordered h hsearch := by
    obtain ⟨order, -, hc⟩ := searchJoins_reordered hsearch
    exact h.reordered? hc

/-- The result for a query that can be written passes the check and can be written. -/
theorem Expressible.optimize {q : Query} (h : q.Expressible d) {m : CostModel} {r : Optimized}
    (hr : q.optimize m = .ok r) : r.query.validate = .ok () ∧ r.query.Expressible d :=
  ⟨validate_of_optimize hr,
    (kept_expressible d).of_optimize (fun hp => hp.unnest m.schema) h hr⟩

/-- Queries of the same signature can be written or not alike. -/
theorem expressible_iff_of_signature_eq {q p : Query} {s s' : Schema}
    (h : q.signature s = p.signature s') : q.Expressible d ↔ p.Expressible d := by
  rw [← expressible_mapLiterals (f := Literal.shown), shown_eq_of_signature_eq h,
    expressible_mapLiterals]

end Query

namespace Optimizer

/-- A query that can be written in a dialect can be written in it when it is optimized, whatever the
optimizer was asked for before. -/
theorem exists_render_optimized (o : Optimizer) (hempty : o.cache.entries = [])
    (requests : List (Query × Schema)) (q : Query) (s : Schema) (d : Dialect) (pretty : Bool)
    {sql : String} (hsql : q.render d pretty = .ok sql) {r : Optimized}
    (hr : ((o.after requests).optimize q s).1 = .ok r) :
    ∃ sql', r.query.render d pretty = .ok sql' := by
  obtain ⟨hvalid, hq⟩ := Query.exists_render_iff.1 ⟨sql, hsql⟩
  rw [Query.exists_render_iff]
  obtain ⟨n, ⟨kept, hmem, hanswer⟩ | hanswer⟩ := (o.after requests).answer_cases s hvalid
  · -- the result that was kept is the one for an earlier query of the same signature
    obtain ⟨p, -, -, hkey, hkept⟩ := kept_after hempty requests _ hmem
    have hp := ((Query.expressible_iff_of_signature_eq hkey).1 hq).optimize hkept
    obtain rfl := Except.ok.inj (hanswer.symm.trans hr)
    exact hp
  · rw [hr, eq_comm, Failure.map_eq_ok_iff] at hanswer
    obtain ⟨new, hnew, rfl⟩ := hanswer
    have hresult := hq.optimize hnew
    exact hresult

/-- The subquery of `knownOrders` becomes a join, and the result is kept for the second time that
the query is asked for. -/
theorem exists_render_optimized_knownOrders :
    ∃ sql r sql', knownOrders.render .ansi true = .ok sql ∧
      (((ofSettings {}).after [(knownOrders, customerSchema 100)]).optimize knownOrders
        (customerSchema 100)).1 = .ok r ∧ r.cached = true ∧ r.query.joins.length = 1 ∧
      r.query.render .ansi true = .ok sql' := by
  have hrun : ((((ofSettings {}).after [(knownOrders, customerSchema 100)]).optimize knownOrders
      (customerSchema 100)).1.map fun r => r.cached && r.query.joins.length == 1) =
        .ok true := by decide +kernel
  obtain ⟨r, hr, hkept⟩ := (Failure.map_eq_ok_iff _ _ _).1 hrun
  obtain ⟨hcached, hjoins⟩ := Bool.and_eq_true_iff.1 hkept
  obtain ⟨sql', hsql'⟩ := exists_render_optimized (ofSettings {}) rfl _ knownOrders
    (customerSchema 100) .ansi true rfl hr
  exact ⟨_, r, sql', rfl, hr, hcached, eq_of_beq hjoins, hsql'⟩

end Optimizer

end AskSql
