import AskSql.Proofs.JoinOrder.Reordering
import AskSql.Proofs.Query.Rows

/-!
# Conditions pushed into joins read the same rows

A condition of the filter is tested on combinations of rows of all tables.  Pushed into a join it is
tested where the join is made, before the joins that follow.  This changes nothing, whatever kinds
of joins stand before and behind it, for two reasons.

* A join that comes later, be it a left join that brings in a row of NULL values, leaves the rows of
  the earlier tables as they are.  A test that looks at earlier tables alone may be made before it
  or after it (`Join.bind_extend_of_unread`).
* An inner join hands on what passes its conditions and nothing else, so a further condition behind
  it is a test of what it hands on (`Join.extend_withConditions`).  Of a left join this is false,
  and nothing is pushed into one.

A row stays where a condition is true of it.  Whether a condition that is not true is false or
unknown plays no part, so a `Meaning` may come from a logic with three values.
-/

namespace AskSql

/-- The join with further conditions behind it. -/
def Join.withConditions (j : Join) (cs : List Condition) : Join :=
  { j with conditions := j.conditions ++ cs }

section Rows

variable {ν : Type} [DecidableEq ν]

/-- What an inner join hands on with further conditions is what passes them of what it hands on
without them. -/
theorem Join.extend_withConditions (db : Contents ν) (I : Meaning ν) {j : Join}
    {cs : List Condition} (hinner : cs ≠ [] → j.kind = .inner) (x : Combination ν) :
    (j.withConditions cs).extend db I x =
      (j.extend db I x).filter fun y => cs.all fun c => I.holds c y := by
  by_cases hcs : cs = []
  · subst hcs
    have hj : j.withConditions [] = j := by
      cases j
      simp [withConditions]
    rw [hj]
    simp
  · have hkind := hinner hcs
    simp only [extend, withConditions, hkind]
    rw [Multiset.filter_filter]
    apply Multiset.filter_congr
    intro y _
    simp only [accepts, ties, List.all_append, Bool.and_eq_true]
    tauto

/-- A run of joins, each with further conditions on its own table: the conditions may as well be
tested when all joins are made.  `p` collects the tests of the joins so far, and no join that is
still to come brings in a table that these look at. -/
theorem Join.foldl_extend_withConditions (db : Contents ν) (I : Meaning ν)
    (js : List (Join × List Condition))
    (hinner : ∀ e ∈ js, e.2 ≠ [] → e.1.kind = .inner)
    (hown : ∀ e ∈ js, ∀ c ∈ e.2, ∀ r ∈ c.references, r.tableKey = e.1.right.tableKey)
    (hnew : (js.map fun e => e.1.right.tableKey).Nodup) (p : Combination ν → Bool)
    (hp : ∀ e ∈ js, ∀ (x : Combination ν) row, p (x.bring e.1.right.tableKey row) = p x)
    (xs : Multiset (Combination ν)) :
    (js.map fun e => e.1.withConditions e.2).foldl (fun xs j => xs.bind (j.extend db I))
        (xs.filter fun x => p x) =
      ((js.map Prod.fst).foldl (fun xs j => xs.bind (j.extend db I)) xs).filter fun x =>
        p x && (js.flatMap Prod.snd).all fun c => I.holds c x := by
  induction js generalizing p xs with
  | nil => simp
  | cons e js ih =>
      obtain ⟨j, cs⟩ := e
      simp only [List.map_cons, List.nodup_cons, List.mem_map, not_exists, not_and] at hnew
      obtain ⟨hfirst, hrest⟩ := hnew
      -- the tests after this join: those of before, and its further conditions
      let p' : Combination ν → Bool := fun x => p x && cs.all fun c => I.holds c x
      have hp' : ∀ e ∈ js, ∀ (x : Combination ν) row,
          p' (x.bring e.1.right.tableKey row) = p' x := by
        intro e he x row
        have hearlier := hp e (List.mem_cons_of_mem _ he) x row
        have hconditions : (cs.all fun c => I.holds c (x.bring e.1.right.tableKey row)) =
            cs.all fun c => I.holds c x := by
          apply I.all_holds_congr
          intro c hc r hr
          apply x.bring_of_ne
          rw [hown (j, cs) List.mem_cons_self c hc r hr]
          exact fun h => hfirst e he h.symm
        change (p _ && _) = (p x && _)
        rw [hearlier, hconditions]
      have hstep : (xs.filter fun x => p x).bind ((j.withConditions cs).extend db I) =
          (xs.bind (j.extend db I)).filter fun x => p' x := by
        have hkind := hinner (j, cs) List.mem_cons_self
        rw [funext (Join.extend_withConditions db I hkind), ← Multiset.filter_bind,
          Join.bind_extend_of_unread db I (hp (j, cs) List.mem_cons_self),
          Multiset.filter_filter]
        apply Multiset.filter_congr
        intro x _
        simp only [p', Bool.and_eq_true]
        exact and_comm
      have htail := ih (fun e he => hinner e (List.mem_cons_of_mem _ he))
        (fun e he => hown e (List.mem_cons_of_mem _ he)) hrest p' hp' (xs.bind (j.extend db I))
      simp only [List.map_cons, List.foldl_cons, List.flatMap_cons, List.all_append]
      rw [hstep, htail]
      apply Multiset.filter_congr
      intro x _
      simp only [p', Bool.and_assoc]

end Rows

namespace Query

/-- The conditions that are pushed into the join of a number. -/
def pushedInto (q : Query) (i : Nat) : List Condition :=
  q.filters.filter fun c => q.pushTarget? c == some i

theorem joins_pushDown_eq_map (q : Query) :
    q.pushDown.query.joins =
      q.joins.zipIdx.map fun e => e.1.withConditions (q.pushedInto e.2) :=
  List.mapIdx_eq_zipIdx_map

theorem flatMap_pushedInto (q : Query) :
    (q.joins.zipIdx.flatMap fun e => q.pushedInto e.2) =
      (List.range q.joins.length).flatMap q.pushedInto := by
  rw [List.range_eq_range', ← List.zipIdx_map_snd 0 q.joins, List.flatMap_map]

/-- A condition that can be pushed into a join is confined to the table that this join brings in,
and the join is an inner one. -/
theorem singleTable?_of_pushTarget? {q : Query} {i : Nat} {j : Join} {c : Condition}
    (hj : q.joins[i]? = some j) (htarget : q.pushTarget? c = some i) :
    j.kind = .inner ∧ c.singleTable? = some j.right.tableKey := by
  obtain ⟨k, hk, hkind, hrefs⟩ := pushTarget?_spec htarget
  obtain rfl : k = j := Option.some.inj (hk.symm.trans hj)
  refine ⟨hkind, ?_⟩
  unfold pushTarget? at htarget
  split at htarget
  · cases htarget
  · obtain ⟨t, ht, -⟩ := Option.bind_eq_some_iff.1 htarget
    -- a condition on a single table has a reference to it
    have hread : t ∈ c.tables := by
      unfold Condition.singleTable? at ht
      split at ht
      · cases ht
      · split at ht
        · next u htables =>
            obtain rfl := Option.some.inj ht
            simp [htables]
        · cases ht
    obtain ⟨r, hr, rfl⟩ := Condition.mem_tables.1 hread
    rw [ht, hrefs r hr]

/-- What is pushed into a join is such a condition of the filter. -/
theorem singleTable?_of_mem_pushedInto {q : Query} {i : Nat} {j : Join} {c : Condition}
    (hj : q.joins[i]? = some j) (hc : c ∈ q.pushedInto i) :
    c ∈ q.filters ∧ j.kind = .inner ∧ c.singleTable? = some j.right.tableKey := by
  simp only [pushedInto, List.mem_filter, beq_iff_eq] at hc
  exact ⟨hc.1, singleTable?_of_pushTarget? hj hc.2⟩

/-- Every condition of the filter stays there or is pushed into one join. -/
theorem filters_perm_pushDown (q : Query) :
    (q.pushDown.query.filters ++ (List.range q.joins.length).flatMap q.pushedInto).Perm
      q.filters := by
  refine perm_filter_keys q.pushTarget? List.nodup_range q.filters fun c _ i hi => ?_
  obtain ⟨j, hj, -⟩ := pushTarget?_spec hi
  exact List.mem_range.2 (List.getElem?_eq_some_iff.1 hj).1

theorem joinConditions_perm_pushDown (q : Query) :
    q.pushDown.query.joinConditions.Perm
      (q.joinConditions ++ (List.range q.joins.length).flatMap q.pushedInto) := by
  have hjoins : q.joinConditions = q.joins.zipIdx.flatMap fun e => e.1.conditions := by
    conv_lhs => rw [joinConditions, ← List.zipIdx_map_fst 0 q.joins, List.flatMap_map]
  have hpushed : q.pushDown.query.joinConditions =
      q.joins.zipIdx.flatMap fun e => e.1.conditions ++ q.pushedInto e.2 := by
    rw [joinConditions, joins_pushDown_eq_map, List.flatMap_map]
    rfl
  rw [← flatMap_pushedInto, hjoins, hpushed]
  exact (List.flatMap_append_perm _ _ _).symm

/-- The joins with what is pushed into them bring in the rows of before, as far as these pass what
is pushed. -/
theorem joinedRows_pushDown {ν : Type} [DecidableEq ν] (db : Contents ν) (I : Meaning ν)
    {q : Query} (hq : q.WellScoped) :
    q.pushDown.query.joinedRows db I =
      (q.joinedRows db I).filter fun x =>
        ((List.range q.joins.length).flatMap q.pushedInto).all fun c => I.holds c x := by
  let js : List (Join × List Condition) := q.joins.zipIdx.map fun e => (e.1, q.pushedInto e.2)
  have hmem : ∀ e ∈ js, ∃ i, q.joins[i]? = some e.1 ∧ e.2 = q.pushedInto i := by
    intro e he
    obtain ⟨⟨j, i⟩, hj, rfl⟩ := List.mem_map.1 he
    exact ⟨i, List.mk_mem_zipIdx_iff_getElem?.1 hj, rfl⟩
  have hpushed : js.flatMap Prod.snd = (List.range q.joins.length).flatMap q.pushedInto := by
    rw [← flatMap_pushedInto, List.flatMap_map]
  have hfst : js.map Prod.fst = q.joins := by
    rw [List.map_map]
    exact List.zipIdx_map_fst 0 q.joins
  have hwith : js.map (fun e => e.1.withConditions e.2) = q.pushDown.query.joins := by
    rw [joins_pushDown_eq_map, List.map_map]
    rfl
  have hnew : (js.map fun e => e.1.right.tableKey).Nodup := by
    have hkeys := hq.tableKeys_nodup
    rw [← scopeAfter_length, scopeAfter, List.take_length, List.nodup_cons, ← hfst,
      List.map_map] at hkeys
    exact hkeys.2
  -- what is pushed down reads the table of its join and no other
  have hrun := Join.foldl_extend_withConditions db I js
    (by
      intro e he hne
      obtain ⟨i, hi, hcs⟩ := hmem e he
      obtain ⟨c, hc⟩ := List.exists_mem_of_ne_nil _ hne
      exact (singleTable?_of_mem_pushedInto hi (hcs ▸ hc)).2.1)
    (by
      intro e he c hc
      obtain ⟨i, hi, hcs⟩ := hmem e he
      exact Condition.tableKey_of_singleTable? (singleTable?_of_mem_pushedInto hi (hcs ▸ hc)).2.2)
    hnew (fun _ => true) (fun _ _ _ _ => rfl) (db.bringAll {.empty} [Text.lower q.source])
  simp only [Multiset.filter_true, Bool.true_and] at hrun
  rw [hwith, hfst, hpushed] at hrun
  exact hrun

/-- On every database the query with its conditions pushed into joins reads the rows that it read
before.  No condition is lost, none is added, and what is new behind a join concerns the table alone
that this join, an inner one, brings in. -/
theorem pushDown_keeps_rows {q : Query} (hvalid : q.validate = .ok ()) :
    (∀ (ν : Type) [DecidableEq ν] (db : Contents ν) (I : Meaning ν),
        q.pushDown.query.rows db I = q.rows db I) ∧
      (q.pushDown.query.filters ++ q.pushDown.query.joinConditions).Perm
        (q.filters ++ q.joinConditions) ∧
      ∀ (i : Nat) (j : Join), q.pushDown.query.joins[i]? = some j →
        ∃ (k : Join) (pushed : List Condition),
          q.joins[i]? = some k ∧ j = k.withConditions pushed ∧
            ∀ c ∈ pushed, c ∈ q.filters ∧ k.kind = .inner ∧
              c.singleTable? = some k.right.tableKey := by
  have hq := (validate_eq_ok_iff q).1 hvalid
  refine ⟨?_, ?_, ?_⟩
  · intro ν _ db I
    rw [rows, joinedRows_pushDown db I hq, Multiset.filter_filter, rows]
    apply Multiset.filter_congr
    intro x _
    have hall := (filters_perm_pushDown q).all_eq (f := fun c => I.holds c x)
    rw [← hall, List.all_append, Bool.and_eq_true]
  · have hjoins := (joinConditions_perm_pushDown q).append_left q.pushDown.query.filters
    refine hjoins.trans ?_
    refine (List.perm_append_comm.append_left _).trans ?_
    rw [← List.append_assoc]
    exact (filters_perm_pushDown q).append_right _
  · intro i j hj
    rw [joins_pushDown, List.getElem?_mapIdx, Option.map_eq_some_iff] at hj
    obtain ⟨k, hk, rfl⟩ := hj
    exact ⟨k, q.pushedInto i, hk, rfl, fun c hc => singleTable?_of_mem_pushedInto hk hc⟩

/-- The open orders of customers in Rome that have no late delivery, with the customer. -/
def openRomanOrders : Query where
  source := "orders"
  items := [.column (.star "orders"), .column ⟨"customers", "name", none⟩]
  joins := [
    { kind := .left, left := ⟨"orders", "id", none⟩, right := ⟨"deliveries", "order_id", none⟩ },
    { left := ⟨"orders", "customer_id", none⟩, right := ⟨"customers", "id", none⟩ },
    { kind := .left, left := ⟨"customers", "id", none⟩, right := ⟨"notes", "customer_id", none⟩ }]
  filters := [
    .compare ⟨"orders", "status", none⟩ .eq (.text "open"),
    .compare ⟨"Customers", "city", none⟩ .eq (.text "Rome"),
    ⟨.column ⟨"deliveries", "late_days", none⟩, .isNull, .null⟩,
    ⟨.column ⟨"customers", "region", none⟩, .eq, .column ⟨"orders", "region", none⟩⟩]

/-- Of the four conditions the one on customers alone is pushed, into the join between two left
joins. -/
theorem pushDown_keeps_rows_openRomanOrders :
    openRomanOrders.validate = .ok () ∧
      (openRomanOrders.pushDown.query.joins.map fun j => j.conditions.length) = [0, 1, 0] ∧
      (∀ (ν : Type) [DecidableEq ν] (db : Contents ν) (I : Meaning ν),
        openRomanOrders.pushDown.query.rows db I = openRomanOrders.rows db I) ∧
      (openRomanOrders.pushDown.query.filters ++
          openRomanOrders.pushDown.query.joinConditions).Perm
        (openRomanOrders.filters ++ openRomanOrders.joinConditions) ∧
      ∀ (i : Nat) (j : Join), openRomanOrders.pushDown.query.joins[i]? = some j →
        ∃ (k : Join) (pushed : List Condition),
          openRomanOrders.joins[i]? = some k ∧ j = k.withConditions pushed ∧
            ∀ c ∈ pushed, c ∈ openRomanOrders.filters ∧ k.kind = .inner ∧
              c.singleTable? = some k.right.tableKey :=
  ⟨rfl, by decide, pushDown_keeps_rows rfl⟩

end Query

end AskSql
