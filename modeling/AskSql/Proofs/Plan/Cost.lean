import AskSql.Plan.Build
import AskSql.Proofs.Decimal.Product
import AskSql.Proofs.Reshape.Pushdown

/-!
# What makes a plan dearer

The cost of a plan is the sum of the costs of its steps, and the cost of a step is computed from the
number of rows that go into it.  Two changes of a query are looked at here.

* Pushed into a join, a condition is tested on the rows that are read of the joined table, as it was
  before.  Only the order of the conditions on this table changes, and with it the order in which
  their shares are multiplied.  As long as this does not change the number of rows, the plan costs
  what it did (`CostModel.planCost_pushDown`).  It does not where the joins that take conditions have
  none of their own (`CostModel.joinedRows_pushDown`).
* Fewer keys of a grouping make a cheaper plan (`CostModel.planCost_regroup_le`): the grouping
  itself costs less, and the steps above it work on as many rows as before.
-/

namespace AskSql

/-- Two plans cost the same and hand on as many rows. -/
structure Plan.Alike (p p' : Plan) : Prop where
  rows_eq : p.rows = p'.rows
  cost_eq : p.totalCost = p'.totalCost

/-! ### Conditions in another order -/

theorem isSome_takeIndexed_iff {s : Schema} {table : String} {cs : List Condition} :
    (takeIndexed s table cs).isSome = true ↔ ∃ c ∈ cs, (c.indexColumn? s table).isSome = true := by
  induction cs with
  | nil => simp [takeIndexed]
  | cons c cs ih =>
      rw [takeIndexed, List.exists_mem_cons_iff, ← ih]
      cases c.indexColumn? s table with
      | none => simp
      | some column => simp

theorem length_of_takeIndexed {s : Schema} {table column : String} {cs rest : List Condition}
    (h : takeIndexed s table cs = some (column, rest)) : cs.length = rest.length + 1 := by
  induction cs generalizing rest with
  | nil => cases h
  | cons c cs ih =>
      rw [takeIndexed] at h
      split at h
      · obtain ⟨-, rfl⟩ := Prod.mk.inj (Option.some.inj h)
        rfl
      · obtain ⟨⟨column', rest'⟩, htake, heq⟩ := Option.map_eq_some_iff.1 h
        obtain ⟨rfl, rfl⟩ := Prod.mk.inj heq
        rw [List.length_cons, List.length_cons, ih htake]

namespace Query

/-- A condition on the table of a join alone is pushed into this join or stays in the filter. -/
theorem eq_of_pushTarget? {q : Query} (hq : q.WellScoped) {i k : Nat} {j : Join} {c : Condition}
    (hj : q.joins[i]? = some j) (hc : c.singleTable? = some (Text.lower j.table))
    (hk : q.pushTarget? c = some k) : k = i := by
  obtain ⟨j', hj', -⟩ := pushTarget?_spec hk
  have hsame := (singleTable?_of_pushTarget? hj' hk).2
  rw [hc] at hsame
  have hkeys : q.keyAt (k + 1) = q.keyAt (i + 1) := by
    rw [keyAt_succ hj', keyAt_succ hj]
    exact (Option.some.inj hsame).symm
  have hi : i < q.joins.length := (List.getElem?_eq_some_iff.1 hj).1
  have hk' : k < q.joins.length := (List.getElem?_eq_some_iff.1 hj').1
  have hindex := hq.keyAt_inj (by rw [length_tables]; omega) (by rw [length_tables]; omega) hkeys
  omega

/-- No condition on the first table alone is pushed. -/
theorem pushTarget?_of_source {q : Query} (hq : q.WellScoped) {c : Condition}
    (hc : c.singleTable? = some (Text.lower q.source)) : q.pushTarget? c = none := by
  cases hk : q.pushTarget? c with
  | none => rfl
  | some k =>
      obtain ⟨j, hj, -⟩ := pushTarget?_spec hk
      have hsame := (singleTable?_of_pushTarget? hj hk).2
      rw [hc] at hsame
      have hlt : k < q.joins.length := (List.getElem?_eq_some_iff.1 hj).1
      have hindex := hq.keyAt_inj (i := 0) (k := k + 1) (by rw [length_tables]; omega)
        (by rw [length_tables]; omega)
        (by rw [keyAt_zero, keyAt_succ hj]; exact Option.some.inj hsame)
      omega

theorem localFilters_pushDown (q : Query) (table : String) :
    q.pushDown.query.localFilters table =
      (q.localFilters table).filter fun c => (q.pushTarget? c).isNone :=
  List.filter_comm ..

theorem localFilters_source_pushDown {q : Query} (hq : q.WellScoped) :
    q.pushDown.query.localFilters q.source = q.localFilters q.source := by
  rw [localFilters_pushDown, List.filter_eq_self]
  intro c hc
  have hsource := (List.mem_filter.1 hc).2
  rw [pushTarget?_of_source hq (beq_iff_eq.1 hsource)]
  rfl

theorem residualFilters_pushDown (q : Query) :
    q.pushDown.query.residualFilters = q.residualFilters := by
  change (q.filters.filter _).filter _ = q.filters.filter _
  rw [List.filter_filter]
  apply List.filter_congr
  intro c _
  cases hc : c.singleTable? with
  | none => simp [pushTarget?, hc]
  | some t => simp

/-- What is pushed into a join is what the filter has on its table alone, as far as it can be pushed
at all. -/
theorem pushedInto_eq {q : Query} (hq : q.WellScoped) {i : Nat} {j : Join}
    (hj : q.joins[i]? = some j) :
    q.pushedInto i = (q.localFilters j.table).filter fun c => !(q.pushTarget? c).isNone := by
  rw [pushedInto, localFilters, List.filter_filter]
  apply List.filter_congr
  intro c _
  rw [Bool.eq_iff_iff]
  simp only [beq_iff_eq, Bool.and_eq_true, Bool.not_eq_true', Option.isNone_eq_false_iff,
    Option.isSome_iff_exists]
  constructor
  · exact fun htarget => ⟨⟨i, htarget⟩, (singleTable?_of_pushTarget? hj htarget).2⟩
  · rintro ⟨⟨k, hk⟩, hc⟩
    rw [hk, eq_of_pushTarget? hq hj hc hk]

/-- The conditions on the table of a join alone: each is tested behind the join now or in the
filter still. -/
theorem localFilters_perm_pushDown {q : Query} (hq : q.WellScoped) {i : Nat} {j : Join}
    (hj : q.joins[i]? = some j) :
    (q.pushDown.query.localFilters j.table ++ (j.conditions ++ q.pushedInto i)).Perm
      (q.localFilters j.table ++ j.conditions) := by
  rw [localFilters_pushDown, pushedInto_eq hq hj]
  refine (List.perm_append_comm.append_left _).trans ?_
  rw [← List.append_assoc]
  exact (List.filter_append_perm _ _).append_right _

/-- Nothing is pushed into the join, or all conditions on its table are and stand there alone. -/
def KeepsOrder (q : Query) (i : Nat) (j : Join) : Prop :=
  q.pushedInto i = [] ∨
    j.conditions = [] ∧ ∀ c ∈ q.localFilters j.table, (q.pushTarget? c).isSome = true

/-- Such a join has the conditions on its table in the order of before. -/
theorem KeepsOrder.conditions_eq {q : Query} (hq : q.WellScoped) {i : Nat} {j : Join}
    (hj : q.joins[i]? = some j) (h : q.KeepsOrder i j) :
    q.pushDown.query.localFilters j.table ++ (j.conditions ++ q.pushedInto i) =
      q.localFilters j.table ++ j.conditions := by
  rw [localFilters_pushDown]
  obtain hnone | ⟨hbare, hall⟩ := h
  · have hstay : ∀ c ∈ q.localFilters j.table, (q.pushTarget? c).isNone = true := by
      rw [pushedInto_eq hq hj, List.filter_eq_nil_iff] at hnone
      simpa using hnone
    rw [hnone, List.append_nil, List.filter_eq_self.2 hstay]
  · have hgone : ∀ c ∈ q.localFilters j.table, ¬ (q.pushTarget? c).isNone = true := by
      intro c hc hnone
      have hsome := hall c hc
      rw [Option.isNone_iff_eq_none.1 hnone] at hsome
      cases hsome
    have hpushed : ∀ c ∈ q.localFilters j.table, (!(q.pushTarget? c).isNone) = true := by
      simpa using hall
    rw [pushedInto_eq hq hj, List.filter_eq_self.2 hpushed, List.filter_eq_nil_iff.2 hgone, hbare]
    simp

instance (q : Query) (i : Nat) (j : Join) : Decidable (q.KeepsOrder i j) :=
  inferInstanceAs (Decidable (_ ∨ _))

end Query

namespace CostModel

variable (m : CostModel)

theorem totalCost_filtered (cs : List Condition) (input : Plan) :
    (m.filtered cs input).totalCost =
      if cs.length = 0 then input.totalCost else m.filterCost cs.length + input.totalCost := by
  unfold filtered
  cases cs with
  | nil => rfl
  | cons c cs => rfl

theorem rows_filtered_congr {p p' : Plan} (h : p.rows = p'.rows) (cs : List Condition) :
    (m.filtered cs p).rows = (m.filtered cs p').rows := by
  unfold filtered
  split
  · exact h
  · change Decimal.larger (p.rows * _) 1.0 = Decimal.larger (p'.rows * _) 1.0
    rw [h]

theorem filtered_alike {p p' : Plan} (h : p.Alike p') (cs : List Condition) :
    (m.filtered cs p).Alike (m.filtered cs p') :=
  ⟨m.rows_filtered_congr h.rows_eq cs, by rw [totalCost_filtered, totalCost_filtered, h.cost_eq]⟩

/-- What reading a table costs depends on the number of its conditions, and on whether an index
helps with one of them. -/
theorem accessPath_alike {table : String} {cs ds : List Condition} (h : cs.Perm ds)
    (hrows : (m.accessPath table cs).rows = (m.accessPath table ds).rows) :
    (m.accessPath table cs).Alike (m.accessPath table ds) := by
  refine ⟨hrows, ?_⟩
  -- whether there is an index does not depend on the order of the conditions
  have hindexed :
      (takeIndexed m.schema table cs).isSome = (takeIndexed m.schema table ds).isSome := by
    rw [Bool.eq_iff_iff, isSome_takeIndexed_iff, isSome_takeIndexed_iff]
    simp only [h.mem_iff]
  unfold accessPath
  cases hcs : takeIndexed m.schema table cs with
  | none =>
      rw [hcs] at hindexed
      have hds : takeIndexed m.schema table ds = none :=
        Option.isNone_iff_eq_none.1 (Option.isSome_eq_false_iff.1 hindexed.symm)
      rw [hds]
      dsimp only
      rw [totalCost_filtered, totalCost_filtered, h.length_eq]
  | some taken =>
      rw [hcs] at hindexed
      obtain ⟨taken', hds⟩ := Option.isSome_iff_exists.1 hindexed.symm
      have hlength := h.length_eq
      rw [length_of_takeIndexed hcs, length_of_takeIndexed hds] at hlength
      rw [hds]
      dsimp only
      rw [totalCost_filtered, totalCost_filtered, Nat.add_right_cancel hlength]
      rfl

/-- How the table of a join is read. -/
def joinedTable (q : Query) (j : Join) : Plan :=
  m.accessPath j.table (q.localFilters j.table ++ j.conditions)

/-- The number of rows that is expected of each joined table. -/
def joinedRows (q : Query) : List Float :=
  q.joins.map fun j => (m.joinedTable q j).rows

/-- The plan of a query up to the grouping. -/
def ungroupedPlan (algorithm : JoinAlgorithm) (q : Query) : Plan :=
  m.filtered q.residualFilters <|
    q.joins.foldl (m.joined algorithm q) (m.accessPath q.source (q.localFilters q.source))

theorem plan_eq (algorithm : JoinAlgorithm) (q : Query) :
    m.plan algorithm q = limited q (m.sorted q (m.grouped q (m.ungroupedPlan algorithm q))) := rfl

theorem rows_joined (algorithm : JoinAlgorithm) (q : Query) (left : Plan) (j : Join) :
    (m.joined algorithm q left j).rows =
      match j.kind with
      | .inner => joinRows left.rows (m.joinedTable q j).rows
      | .left => Decimal.larger (joinRows left.rows (m.joinedTable q j).rows) left.rows := rfl

theorem totalCost_joined (algorithm : JoinAlgorithm) (q : Query) (left : Plan) (j : Join) :
    (m.joined algorithm q left j).totalCost =
      (match algorithm with
        | .nestedLoop => m.nestedLoopCost left.rows (m.joinedTable q j).rows
        | .hash => m.hashJoinCost left.rows (m.joinedTable q j).rows) +
        (left.totalCost + (m.joinedTable q j).totalCost) := rfl

theorem joined_alike (algorithm : JoinAlgorithm) {q q' : Query} {left left' : Plan} {j j' : Join}
    (hleft : left.Alike left') (hkind : j.kind = j'.kind)
    (hright : (m.joinedTable q j).Alike (m.joinedTable q' j')) :
    (m.joined algorithm q left j).Alike (m.joined algorithm q' left' j') := by
  constructor
  · rw [rows_joined, rows_joined, hkind, hleft.rows_eq, hright.rows_eq]
  · rw [totalCost_joined, totalCost_joined, hleft.rows_eq, hleft.cost_eq, hright.rows_eq,
      hright.cost_eq]

/-- Joins of the same kinds with tables that are read alike. -/
theorem foldl_joined_alike (algorithm : JoinAlgorithm) {q q' : Query} {js js' : List Join}
    (h : List.Forall₂
      (fun j j' => j.kind = j'.kind ∧ (m.joinedTable q j).Alike (m.joinedTable q' j')) js js')
    {left left' : Plan} (hleft : left.Alike left') :
    (js.foldl (m.joined algorithm q) left).Alike (js'.foldl (m.joined algorithm q') left') := by
  induction h generalizing left left' with
  | nil => exact hleft
  | cons hj _ ih => exact ih (m.joined_alike algorithm hleft hj.1 hj.2)

/-- Where the joins keep the order of their conditions, as many rows are expected as before. -/
theorem joinedRows_pushDown {q : Query} (hq : q.WellScoped)
    (h : ∀ e ∈ q.joins.zipIdx, q.KeepsOrder e.2 e.1) :
    m.joinedRows q.pushDown.query = m.joinedRows q := by
  unfold joinedRows
  rw [Query.joins_pushDown_eq_map, List.map_map]
  conv_rhs => rw [← List.zipIdx_map_fst 0 q.joins, List.map_map]
  apply List.map_congr_left
  rintro ⟨j, i⟩ he
  have hj := List.mk_mem_zipIdx_iff_getElem?.1 he
  exact congrArg (fun cs => (m.accessPath j.table cs).rows) ((h _ he).conditions_eq hq hj)

theorem ungroupedPlan_pushDown_alike (algorithm : JoinAlgorithm) {q : Query} (hq : q.WellScoped)
    (hrows : m.joinedRows q.pushDown.query = m.joinedRows q) :
    (m.ungroupedPlan algorithm q.pushDown.query).Alike (m.ungroupedPlan algorithm q) := by
  have hlength : q.pushDown.query.joins.length = q.joins.length := by
    rw [Query.joins_pushDown, List.length_mapIdx]
  -- join by join, a table is filtered by the same conditions in another order
  have hjoins : List.Forall₂ (fun j j' => j.kind = j'.kind ∧
      (m.joinedTable q.pushDown.query j).Alike (m.joinedTable q j'))
      q.pushDown.query.joins q.joins := by
    rw [List.forall₂_iff_get]
    refine ⟨hlength, fun i hi hi' => ?_⟩
    have hj : q.joins[i]? = some (q.joins.get ⟨i, hi'⟩) := List.getElem?_eq_getElem hi'
    have hpushed : q.pushDown.query.joins.get ⟨i, hi⟩ =
        (q.joins.get ⟨i, hi'⟩).withConditions (q.pushedInto i) := by
      simp only [List.get_eq_getElem, Query.joins_pushDown, List.getElem_mapIdx]
      rfl
    have hsame : (m.joinedTable q.pushDown.query (q.pushDown.query.joins.get ⟨i, hi⟩)).rows =
        (m.joinedTable q (q.joins.get ⟨i, hi'⟩)).rows := by
      have hget := congrArg (fun l => l[i]?) hrows
      simpa [joinedRows, hi, hi'] using hget
    rw [hpushed] at hsame ⊢
    exact ⟨rfl, m.accessPath_alike (Query.localFilters_perm_pushDown hq hj) hsame⟩
  have hbase : m.accessPath q.source (q.pushDown.query.localFilters q.source) =
      m.accessPath q.source (q.localFilters q.source) := by
    rw [Query.localFilters_source_pushDown hq]
  unfold ungroupedPlan
  rw [Query.residualFilters_pushDown]
  apply filtered_alike
  apply m.foldl_joined_alike algorithm hjoins
  change (m.accessPath q.source (q.pushDown.query.localFilters q.source)).Alike _
  rw [hbase]
  exact ⟨rfl, rfl⟩

theorem totalCost_sorted (q : Query) (input : Plan) :
    (m.sorted q input).totalCost =
      if q.orderBy.isEmpty then input.totalCost else m.sortCost input.rows + input.totalCost := by
  unfold sorted
  split
  · rfl
  · rfl

theorem totalCost_limited (q : Query) (input : Plan) :
    (limited q input).totalCost =
      if q.limit.isSome then 0.0 + input.totalCost else input.totalCost := by
  unfold limited
  cases q.limit with
  | none => rfl
  | some n => rfl

theorem grouped_alike {p p' : Plan} (h : p.Alike p') (q : Query) :
    (m.grouped q p).Alike (m.grouped q p') := by
  unfold grouped
  split
  · apply filtered_alike
    constructor
    · change (if _ then _ else Decimal.larger (p.rows * _) 1.0) = _
      rw [h.rows_eq]
      rfl
    · simp only [Plan.totalCost]
      rw [h.rows_eq, h.cost_eq]
  · exact h

theorem totalCost_sorted_alike {p p' : Plan} (h : p.Alike p') (q : Query) :
    (m.sorted q p).totalCost = (m.sorted q p').totalCost := by
  rw [totalCost_sorted, totalCost_sorted, h.rows_eq, h.cost_eq]

/-- Pushing conditions down does not change the cost, unless it changes the number of rows that is
expected of a joined table.  What the query selects and groups by plays no part in this. -/
theorem planCost_pushDown {q : Query} (hq : q.WellScoped)
    (hrows : m.joinedRows q.pushDown.query = m.joinedRows q) (items : List Item)
    (keys : List Reference) :
    m.planCost { q with items, groupBy := keys }.pushDown.query =
      m.planCost { q with items, groupBy := keys } := by
  have hplans := m.ungroupedPlan_pushDown_alike .nestedLoop hq hrows
  have hsorted := m.totalCost_sorted_alike
    (m.grouped_alike hplans { q with items, groupBy := keys }) { q with items, groupBy := keys }
  unfold planCost
  rw [plan_eq, plan_eq, totalCost_limited, totalCost_limited]
  exact congrArg (fun cost => if q.limit.isSome then 0.0 + cost else cost) hsorted

/-! ### Fewer keys of a grouping -/

/-- The cost constants are not below zero, as far as they are numbers at all. -/
structure Priced : Prop where
  cpu : ¬ m.settings.cpuCost ≤ 0
  condition : ¬ m.settings.filterCostPerCondition < 0

variable {m}

theorem Priced.rank_cpu (h : m.Priced) (hnumber : m.settings.cpuCost.isNaN = false) :
    0 ≤ Decimal.rank m.settings.cpuCost := by
  have hzero : (0 : Float).isNaN = false ∧ Decimal.rank 0 = 0 := by decide
  by_contra hneg
  exact h.cpu ((Decimal.le_iff _ _).2 ⟨hnumber, hzero.1, by omega⟩)

theorem Priced.rank_condition (h : m.Priced)
    (hnumber : m.settings.filterCostPerCondition.isNaN = false) :
    0 ≤ Decimal.rank m.settings.filterCostPerCondition := by
  have hzero : (0 : Float).isNaN = false ∧ Decimal.rank 0 = 0 := by decide
  by_contra hneg
  exact h.condition ((Decimal.lt_iff _ _).2 ⟨hnumber, hzero.1, by omega⟩)

theorem Priced.rank_filterCost (h : m.Priced) {n : Nat}
    (hnumber : (m.filterCost n).isNaN = false) : 0 ≤ Decimal.rank (m.filterCost n) := by
  have hcondition := h.rank_condition (Decimal.number_of_mul hnumber).2
  have hcount := ((Decimal.nonneg_iff _).1 (Decimal.ofNat_nonneg n)).2
  exact Decimal.rank_mul_nonneg hcount hcondition hnumber

theorem Priced.aggregateCost_le (h : m.Priced) {rows : Float} (hrows : 0 ≤ rows) {k n : Nat}
    (hkeys : k ≤ n) (hbound : n < 2 ^ 64) (hnumber : (m.aggregateCost rows n).isNaN = false) :
    0 ≤ m.aggregateCost rows k ∧ m.aggregateCost rows k ≤ m.aggregateCost rows n := by
  have hmax : max k 1 ≤ max n 1 := by omega
  have hpos : 0 < max k 1 := by omega
  have hlt : max n 1 < 2 ^ 64 := by omega
  unfold aggregateCost at *
  obtain ⟨hproduct, hcpu⟩ := Decimal.number_of_mul hnumber
  have hcpu := h.rank_cpu hcpu
  have hrank := ((Decimal.nonneg_iff _).1 hrows).2
  have hcount := Decimal.rank_ofNat_pos hpos (hmax.trans_lt hlt)
  have hcounts := Decimal.ofNat_le_ofNat hmax hlt
  have hfewer : rows * Decimal.ofNat (max k 1) ≤ rows * Decimal.ofNat (max n 1) := by
    rw [Decimal.mul_comm rows, Decimal.mul_comm rows]
    rw [Decimal.mul_comm rows] at hproduct
    exact Decimal.mul_le_mul_right hcount.le hcounts hrank (fun hzero => absurd hzero hcount.ne')
      hproduct
  have hleft := Decimal.rank_mul_nonneg hrank hcount.le ((Decimal.le_iff _ _).1 hfewer).1
  have hle : rows * Decimal.ofNat (max k 1) * m.settings.cpuCost ≤
      rows * Decimal.ofNat (max n 1) * m.settings.cpuCost := by
    refine Decimal.mul_le_mul_right hleft hfewer hcpu (fun hzero => ?_) hnumber
    -- a product that vanishes has no rows in it
    have hbelow := Decimal.rank_le_rank_mul_ofNat hrows hpos (hmax.trans_lt hlt)
    have hcounts := ((Decimal.nonneg_iff _).1 (Decimal.ofNat_nonneg (max n 1))).2
    have hnone : Decimal.rank rows = 0 := le_antisymm (hbelow.trans hzero.le) hrank
    exact Decimal.rank_mul_of_rank_eq_zero hnone hcounts hproduct
  have hless := ((Decimal.le_iff _ _).1 hle).1
  exact ⟨(Decimal.nonneg_iff _).2 ⟨hless, Decimal.rank_mul_nonneg hleft hcpu hless⟩, hle⟩

theorem rows_filtered_nonneg {input : Plan} (h : 0 ≤ input.rows) (cs : List Condition) :
    0 ≤ (m.filtered cs input).rows := by
  unfold filtered
  split
  · exact h
  · exact Decimal.larger_nonneg_right _ Decimal.zero_le_one

theorem rows_accessPath_nonneg (table : String) (cs : List Condition) :
    0 ≤ (m.accessPath table cs).rows := by
  unfold accessPath
  dsimp only
  split
  · apply rows_filtered_nonneg
    change 0 ≤ Decimal.larger _ 1.0
    exact Decimal.larger_nonneg_right _ Decimal.zero_le_one
  · apply rows_filtered_nonneg
    change 0 ≤ m.tableRows table
    exact Decimal.ofNat_nonneg _

theorem rows_joined_nonneg (algorithm : JoinAlgorithm) (q : Query) (left : Plan) (j : Join) :
    0 ≤ (m.joined algorithm q left j).rows := by
  have hright : 0 ≤ (m.joinedTable q j).rows := rows_accessPath_nonneg _ _
  rw [rows_joined]
  split
  · exact Decimal.larger_nonneg_right _ hright
  · exact Decimal.larger_nonneg_left (Decimal.larger_nonneg_right _ hright) _

theorem rows_ungroupedPlan_nonneg (algorithm : JoinAlgorithm) (q : Query) :
    0 ≤ (m.ungroupedPlan algorithm q).rows := by
  have hjoins : ∀ (js : List Join) (left : Plan), 0 ≤ left.rows →
      0 ≤ (js.foldl (m.joined algorithm q) left).rows := by
    intro js
    induction js with
    | nil => exact fun _ hleft => hleft
    | cons j js ih => exact fun left _ => ih _ (rows_joined_nonneg algorithm q left j)
  exact rows_filtered_nonneg (hjoins _ _ (rows_accessPath_nonneg _ _)) _

/-- Sorting costs the same for as many rows. -/
theorem sorted_le {q q' : Query} {p p' : Plan} (horder : q.orderBy = q'.orderBy)
    (hrows : p.rows = p'.rows) (h : Decimal.Under p.totalCost p'.totalCost)
    (hnumber : (m.sorted q' p').totalCost.isNaN = false) :
    (m.sorted q p).totalCost ≤ (m.sorted q' p').totalCost := by
  rw [totalCost_sorted] at hnumber ⊢
  rw [totalCost_sorted, horder, hrows]
  split
  · exact h.le
  · next hsorted =>
      rw [if_neg hsorted] at hnumber
      exact h.add_left hnumber

theorem limited_le {q q' : Query} {p p' : Plan} (hlimit : q.limit = q'.limit)
    (h : p.totalCost ≤ p'.totalCost) (hnumber : (limited q' p').totalCost.isNaN = false) :
    (limited q p).totalCost ≤ (limited q' p').totalCost := by
  have hzero : Decimal.rank 0.0 ≠ Decimal.infinite := by decide
  rw [totalCost_limited] at hnumber ⊢
  rw [totalCost_limited, hlimit]
  split
  · next hlimited =>
      rw [if_pos hlimited] at hnumber
      exact Decimal.add_le_add_left h (fun htop => absurd htop hzero) hnumber
  · exact h

/-- Testing the same conditions keeps the order of two plans. -/
theorem filtered_under (hpriced : m.Priced) {p p' : Plan}
    (h : Decimal.Under p.totalCost p'.totalCost) (cs : List Condition)
    (hnumber : (m.filtered cs p').totalCost.isNaN = false) :
    Decimal.Under (m.filtered cs p).totalCost (m.filtered cs p').totalCost := by
  rw [totalCost_filtered] at hnumber ⊢
  rw [totalCost_filtered]
  split
  · exact h
  · next hconditions =>
      rw [if_neg hconditions] at hnumber
      exact h.add_nonneg_left (hpriced.rank_filterCost (Decimal.number_of_add hnumber).1) hnumber

theorem number_of_filtered {input : Plan} {cs : List Condition}
    (h : (m.filtered cs input).totalCost.isNaN = false) : input.totalCost.isNaN = false := by
  rw [totalCost_filtered] at h
  split at h
  · exact h
  · exact (Decimal.number_of_add h).2

/-- A grouping by fewer keys, but by some if there were any, costs no more and hands on as many
rows. -/
theorem grouped_under (hpriced : m.Priced) {q q' : Query} {input : Plan} (hrows : 0 ≤ input.rows)
    (haggregates : q.hasAggregates = q'.hasAggregates)
    (hempty : q.groupBy.isEmpty = q'.groupBy.isEmpty)
    (hkeys : q.groupBy.length ≤ q'.groupBy.length) (hbound : q'.groupBy.length < 2 ^ 64)
    (hhaving : q.having = q'.having)
    (hnumber : (m.grouped q' input).totalCost.isNaN = false) :
    (m.grouped q input).rows = (m.grouped q' input).rows ∧
      Decimal.Under (m.grouped q input).totalCost (m.grouped q' input).totalCost := by
  unfold grouped at hnumber ⊢
  rw [haggregates, hempty, hhaving]
  split
  · next hgroups =>
      rw [if_pos hgroups] at hnumber
      refine ⟨by apply rows_filtered_congr; rfl, filtered_under hpriced ?_ _ hnumber⟩
      have hsum := number_of_filtered hnumber
      simp only [Plan.totalCost] at hsum ⊢
      obtain ⟨hnonneg, hle⟩ :=
        hpriced.aggregateCost_le hrows hkeys hbound (Decimal.number_of_add hsum).1
      exact Decimal.under_add_right ((Decimal.nonneg_iff _).1 hnonneg).2 hle hsum
  · next hplain =>
      rw [if_neg hplain] at hnumber
      exact ⟨rfl, .refl hnumber⟩

/-- A query with fewer keys in its grouping, but with some if there were any, has a plan that is no
dearer. -/
theorem planCost_regroup_le (hpriced : m.Priced) {q : Query} {items : List Item}
    {keys : List Reference} (haggregates : items.any Item.isAggregate = q.hasAggregates)
    (hempty : keys.isEmpty = q.groupBy.isEmpty) (hkeys : keys.length ≤ q.groupBy.length)
    (hbound : q.groupBy.length < 2 ^ 64) (hnumber : (m.planCost q).isNaN = false) :
    m.planCost { q with items, groupBy := keys } ≤ m.planCost q := by
  unfold planCost at hnumber ⊢
  rw [plan_eq] at hnumber ⊢
  rw [plan_eq]
  -- the cost is a number, so the costs of the plans inside are numbers
  have hsorted : (m.sorted q (m.grouped q (m.ungroupedPlan .nestedLoop q))).totalCost.isNaN =
      false := by
    rw [totalCost_limited] at hnumber
    split at hnumber
    · exact (Decimal.number_of_add hnumber).2
    · exact hnumber
  have hgrouped : (m.grouped q (m.ungroupedPlan .nestedLoop q)).totalCost.isNaN = false := by
    have h := hsorted
    rw [totalCost_sorted] at h
    split at h
    · exact h
    · exact (Decimal.number_of_add h).2
  obtain ⟨hrows, hunder⟩ := grouped_under hpriced (q := { q with items, groupBy := keys })
    (rows_ungroupedPlan_nonneg .nestedLoop q) haggregates hempty hkeys hbound rfl hgrouped
  exact limited_le rfl (sorted_le rfl hrows hunder hsorted) hnumber

end CostModel
end AskSql
