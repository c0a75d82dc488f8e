import AskSql.Proofs.Optimizer.Again
import AskSql.Proofs.Optimizer.Cached
import AskSql.Proofs.Optimizer.Scope
import AskSql.Proofs.Plan.Cost

/-!
# What optimizing does to the cost

Of the steps that the optimizer takes only the search for an order of the joins compares costs; the
others are taken whatever they cost.  Three of them, and one slip of rounding, may make a plan
dearer (`Optimizer.optimize_dearer`):

* a completed grouping has more keys, and grouping is paid for by the key;
* a condition that always holds is folded away, and then more rows are expected behind it;
* a subquery costs nothing until it becomes a join;
* conditions that are pushed into a join are multiplied in another order, and the rounded product
  may be a little larger.

Where none of this happens, the result costs no more than the query as it was given
(`Optimizer.optimize_no_dearer`).  Repeated keys of a grouping are dropped, which makes it cheaper
through all steps above it, pushed conditions are paid for where they are tested now, and an order
of the joins is only taken if its plan is cheaper.  The check of the settings lets cost constants
pass that are no numbers; then no costs can be compared.
-/

namespace AskSql

/-- Settings that pass the check have cost constants that are not below zero, as far as they are
numbers at all. -/
theorem Settings.priced_of_check {c : Settings} (h : c.check = .ok ()) (s : Schema) :
    (⟨s, c.optimizer⟩ : CostModel).Priced := by
  simp only [check, Failure.check_eq_ok_iff] at h
  obtain ⟨-, -, -, -, -, -, -, h⟩ := h
  split at h
  · cases h
  · next hconstants =>
      simp only [Bool.or_eq_true, decide_eq_true_eq, not_or] at hconstants
      exact ⟨hconstants.1.1, hconstants.1.2⟩

namespace Query

variable {m : CostModel}

theorem groupBy_optimizeJoins (acc : Logged) :
    (optimizeJoins m acc).1.groupBy = acc.1.groupBy := by
  unfold optimizeJoins
  split
  · next c cost evaluated hsearch =>
      obtain ⟨⟨order, -, hc⟩, -⟩ := searchJoins_spec hsearch
      rw [eq_of_reordered? hc]
  · rfl
  · rfl
  · rfl

/-- An order is taken only if its plan is cheaper. -/
theorem planCost_optimizeJoins_le {acc : Logged} (hnumber : (m.planCost acc.1).isNaN = false) :
    m.planCost (optimizeJoins m acc).1 ≤ m.planCost acc.1 := by
  have hsame := (Decimal.Under.refl hnumber).le
  unfold optimizeJoins
  split
  · next c cost evaluated hsearch =>
      obtain ⟨-, rfl, hless⟩ := searchJoins_spec hsearch
      rw [Decimal.lt_iff] at hless
      exact (Decimal.le_iff _ _).2 ⟨hless.1, hless.2.1, hless.2.2.le⟩
  · exact hsame
  · exact hsame
  · exact hsame

/-- Completing a grouping changes the keys and what is selected, and nothing else. -/
theorem optimizeGrouping_eq (q : Query) : q.optimizeGrouping.1 =
    { q with
      items := q.completeGrouping.query.items
      groupBy := q.completeGrouping.query.distinctKeys } :=
  fst_optimizeGrouping q

/-- A grouping by some keys is completed to one by some keys. -/
theorem isEmpty_groupBy_optimizeGrouping {q : Query}
    (h : q.optimizeGrouping.1.groupBy.length ≤ q.groupBy.length) :
    q.optimizeGrouping.1.groupBy.isEmpty = q.groupBy.isEmpty := by
  rw [fst_optimizeGrouping] at h ⊢
  cases hkeys : q.groupBy with
  | nil =>
      rw [hkeys] at h
      rw [List.eq_nil_of_length_eq_zero (Nat.le_zero.1 h)]
  | cons key keys =>
      have hkey : key ∈ ([] : List Reference) ++ q.completedKeys := by
        simp [completedKeys, hkeys]
      obtain ⟨g, hg, -⟩ := exists_sameColumn_foldl_addKey [] q.completedKeys key hkey
      have hne : q.completeGrouping.query.dedupGrouping.query.groupBy ≠ [] := List.ne_nil_of_mem hg
      rw [List.isEmpty_eq_false_iff.2 hne]
      rfl

/-- Completing a grouping without more keys in the end makes no plan dearer. -/
theorem planCost_optimizeGrouping_le (hpriced : m.Priced) {q : Query}
    (hkeys : q.optimizeGrouping.1.groupBy.length ≤ q.groupBy.length)
    (hbound : q.groupBy.length < 2 ^ 64) (hnumber : (m.planCost q).isNaN = false) :
    m.planCost q.optimizeGrouping.1 ≤ m.planCost q := by
  have hempty := isEmpty_groupBy_optimizeGrouping hkeys
  rw [optimizeGrouping_eq] at hkeys hempty ⊢
  exact CostModel.planCost_regroup_le hpriced (hasAggregates_completeGrouping q) hempty hkeys hbound
    hnumber

theorem costs_of_finish {given : Query} {acc : Logged} {required : ColumnSets}
    {hints : List IndexHint} {alternatives : List Alternative} {r : Optimized}
    (h : finish m given acc required hints alternatives = .ok r) :
    r.query = acc.1 ∧ r.steps = acc.2 ∧ r.cost = m.planCost acc.1 ∧
      r.costBefore = m.planCost given := by
  obtain ⟨-, hr⟩ := finish_eq_ok_iff.1 h
  rw [hr]
  exact ⟨rfl, rfl, rfl, rfl⟩

/-- The costs of a result are those of the plans of its query and of the given one. -/
theorem costs_of_optimize {q : Query} {r : Optimized} (h : q.optimize m = .ok r) :
    r.cost = m.planCost r.query ∧ r.costBefore = m.planCost q := by
  rw [optimize_eq] at h
  split at h
  · obtain ⟨hquery, -, hcost, hbefore⟩ := costs_of_finish h
    rw [hquery]
    exact ⟨hcost, hbefore⟩
  · obtain ⟨hquery, -, hcost, hbefore⟩ := costs_of_finish h
    rw [hquery]
    exact ⟨hcost, hbefore⟩

/-- Without folding, and with as many rows as before expected of the joined tables, the query with
its tables in order costs no more than the given one. -/
theorem planCost_optimizeOrder_le (hpriced : m.Priced) {q : Query} (hq : q.WellScoped)
    (hnumber : (m.planCost q).isNaN = false)
    (hkeys : (q.optimizeOrder m).1.groupBy.length ≤ q.groupBy.length)
    (hbound : q.groupBy.length < 2 ^ 64)
    (hfold : ∀ o ∈ q.optimizeConditions.2, o.kind ≠ .constantFolding)
    (hrows : m.joinedRows q.pushDown.query = m.joinedRows q) :
    m.planCost (q.optimizeOrder m).1 ≤ m.planCost q := by
  -- nothing is folded, so of the conditions some are pushed down and no more
  have hconditions : q.optimizeConditions.1 = q.optimizeGrouping.1.pushDown.query := by
    have hunfolded : ∀ o ∈ (reshape .constantFolding foldConstants q.optimizeGrouping).2,
        o.kind ≠ .constantFolding := fun o ho => hfold o (subset_reshape _ _ _ ho)
    rw [optimizeConditions, fst_reshape_pushDown, fst_reshape_of_not_mem hunfolded]
  -- which costs nothing, as the joined tables keep their rows
  have hpushed : m.planCost q.optimizeGrouping.1.pushDown.query =
      m.planCost q.optimizeGrouping.1 := by
    rw [optimizeGrouping_eq]
    exact m.planCost_pushDown hq hrows _ _
  rw [fst_optimizeOrder, hconditions] at hkeys ⊢
  rw [groupBy_optimizeJoins] at hkeys
  have hgrouped := planCost_optimizeGrouping_le hpriced hkeys hbound hnumber
  rw [← hpushed] at hgrouped
  exact Decimal.le_trans (planCost_optimizeJoins_le ((Decimal.le_iff _ _).1 hgrouped).1) hgrouped

/-- A result that came about without folding and without a subquery that became a join costs no more
than the query as it was given. -/
theorem cost_le_of_optimize (hpriced : m.Priced) {q : Query} {r : Optimized}
    (hvalid : q.validate = .ok ()) (h : q.optimize m = .ok r)
    (hnumber : r.costBefore.isNaN = false)
    (hkeys : r.query.groupBy.length ≤ q.groupBy.length) (hbound : q.groupBy.length < 2 ^ 64)
    (hsteps : ∀ o ∈ r.steps, o.kind ≠ .constantFolding ∧ o.kind ≠ .subqueryUnnest)
    (hrows : m.settings.enableAdvanced = true →
      m.joinedRows q.pushDown.query = m.joinedRows q) : r.cost ≤ r.costBefore := by
  have hq := (validate_eq_ok_iff q).1 hvalid
  rw [optimize_eq] at h
  split at h
  · next hadvanced =>
      obtain ⟨hquery, hlisted, hcost, hbefore⟩ := costs_of_finish h
      rw [hlisted] at hsteps
      -- nothing is lifted, so the ordered query is what comes back
      have hunnested : (q.optimizeSubqueries m).1 = (q.optimizeOrder m).1 :=
        fst_optimizeSubqueries_of_not_mem fun o ho => (hsteps o ho).2
      have hfold : ∀ o ∈ q.optimizeConditions.2, o.kind ≠ .constantFolding := fun o ho =>
        (hsteps o (subset_optimizeSubqueries m q (subset_optimizeOrder m q ho))).1
      rw [hbefore] at hnumber
      rw [hquery, hunnested] at hkeys
      rw [hcost, hbefore, hunnested]
      exact planCost_optimizeOrder_le hpriced hq hnumber hkeys hbound hfold (hrows hadvanced)
  · obtain ⟨hquery, -, hcost, hbefore⟩ := costs_of_finish h
    rw [hbefore] at hnumber
    rw [hquery] at hkeys
    rw [hcost, hbefore]
    exact planCost_optimizeGrouping_le hpriced hkeys hbound hnumber

end Query

namespace Optimizer

/-- An answer of the optimizer, whatever was asked before, costs no more than the query as it was
given, if earlier requests of the same signature came to the same result, the cost of the query is a
number, its grouping gets no more keys, neither folding nor a subquery changes it, and as many rows
as before are expected of the joined tables when conditions are pushed into joins. -/
theorem optimize_no_dearer (c : Settings) (hcheck : c.check = .ok ())
    (requests : List (Query × Schema)) (q : Query) (s : Schema) (r : Optimized)
    (hanswer : (((ofSettings c.optimizer).after requests).optimize q s).1 = .ok r)
    (hcurrent : ∀ p ∈ requests, q.signature s = p.1.signature p.2 →
      q.optimize ⟨s, c.optimizer⟩ = p.1.optimize ⟨p.2, c.optimizer⟩)
    (hnumber : r.costBefore.isNaN = false)
    (hkeys : r.query.groupBy.length ≤ q.groupBy.length) (hbound : q.groupBy.length < 2 ^ 64)
    (hsteps : ∀ o ∈ r.steps, o.kind ≠ .constantFolding ∧ o.kind ≠ .subqueryUnnest)
    (hrows : c.optimizer.enableAdvanced = true →
      CostModel.joinedRows ⟨s, c.optimizer⟩ q.pushDown.query =
        CostModel.joinedRows ⟨s, c.optimizer⟩ q) :
    r.cost ≤ r.costBefore ∧ r.cost = CostModel.planCost ⟨s, c.optimizer⟩ r.query ∧
      r.costBefore = CostModel.planCost ⟨s, c.optimizer⟩ q := by
  have hvalid := validate_of_answer hanswer
  obtain ⟨n, cached, hfresh⟩ := answer_after (o := ofSettings c.optimizer) rfl requests hvalid
    hcurrent
  rw [hanswer] at hfresh
  -- a kept answer differs from a new one in its mark and its advice alone
  obtain ⟨fresh, hnew, rfl⟩ := (Failure.map_eq_ok_iff _ _ _).1 hfresh.symm
  have hle : fresh.cost ≤ fresh.costBefore :=
    Query.cost_le_of_optimize (Settings.priced_of_check hcheck s) hvalid hnew hnumber hkeys hbound
      hsteps hrows
  obtain ⟨hcost, hbefore⟩ := Query.costs_of_optimize hnew
  exact ⟨hle, hcost, hbefore⟩

/-- The number of orders of products by category, for books; the key stands twice. -/
def orderedBooks : Query where
  source := "orders"
  items := [.column ⟨"categories", "name", none⟩, .aggregate (.countRows "orders")]
  joins := [
    { left := ⟨"orders", "product_id", none⟩, right := ⟨"products", "id", none⟩ },
    { left := ⟨"products", "category_id", none⟩, right := ⟨"categories", "id", none⟩ }]
  filters := [.compare ⟨"Categories", "name", none⟩ .eq (.text "Books")]
  groupBy := [⟨"categories", "name", none⟩, ⟨"Categories", "name", none⟩]

/-- Many orders of few products in fewer categories. -/
def bookSchema : Schema where
  tables := [{ name := "orders", rowCount := some 100000 },
    { name := "products", rowCount := some 500 }, { name := "categories", rowCount := some 20 }]

/-- One key is dropped, the condition is pushed, and the orders are joined last; all this is known
from an earlier request. -/
theorem optimize_no_dearer_orderedBooks :
    ({} : Settings).check = .ok () ∧
      ∃ r, (((ofSettings {}).after [(orderedBooks, bookSchema)]).optimize orderedBooks
          bookSchema).1 = .ok r ∧
        (∀ p ∈ [(orderedBooks, bookSchema)],
          orderedBooks.signature bookSchema = p.1.signature p.2 →
            orderedBooks.optimize ⟨bookSchema, {}⟩ = p.1.optimize ⟨p.2, {}⟩) ∧
        r.costBefore.isNaN = false ∧ r.query.groupBy.length ≤ orderedBooks.groupBy.length ∧
        orderedBooks.groupBy.length < 2 ^ 64 ∧
        (∀ o ∈ r.steps, o.kind ≠ .constantFolding ∧ o.kind ≠ .subqueryUnnest) ∧
        CostModel.joinedRows ⟨bookSchema, {}⟩ orderedBooks.pushDown.query =
          CostModel.joinedRows ⟨bookSchema, {}⟩ orderedBooks ∧
        r.cost ≤ r.costBefore ∧ r.cost = CostModel.planCost ⟨bookSchema, {}⟩ r.query ∧
          r.costBefore = CostModel.planCost ⟨bookSchema, {}⟩ orderedBooks := by
  have hrun : (orderedBooks.optimize ⟨bookSchema, {}⟩).map (fun r => decide
      (r.costBefore.isNaN = false ∧ r.query.groupBy.length ≤ orderedBooks.groupBy.length ∧
        ∀ o ∈ r.steps, o.kind ≠ .constantFolding ∧ o.kind ≠ .subqueryUnnest)) = .ok true := by
    decide +kernel
  have hrows : CostModel.joinedRows ⟨bookSchema, {}⟩ orderedBooks.pushDown.query =
      CostModel.joinedRows ⟨bookSchema, {}⟩ orderedBooks :=
    CostModel.joinedRows_pushDown _ ((Query.validate_eq_ok_iff _).1 rfl) (by decide)
  have hcurrent : ∀ p ∈ [(orderedBooks, bookSchema)],
      orderedBooks.signature bookSchema = p.1.signature p.2 →
        orderedBooks.optimize ⟨bookSchema, {}⟩ = p.1.optimize ⟨p.2, {}⟩ :=
    List.forall_mem_singleton.2 fun _ => rfl
  obtain ⟨fresh, hnew, hfacts⟩ := (Failure.map_eq_ok_iff _ _ _).1 hrun
  obtain ⟨hnumber, hkeys, hsteps⟩ := of_decide_eq_true hfacts
  obtain ⟨n, cached, hanswer⟩ := answer_after (o := ofSettings {}) rfl
    [(orderedBooks, bookSchema)] (q := orderedBooks) (s := bookSchema) rfl hcurrent
  have hbound : orderedBooks.groupBy.length < 2 ^ 64 := by decide
  change _ = (orderedBooks.optimize ⟨bookSchema, {}⟩).map _ at hanswer
  rw [hnew] at hanswer
  exact ⟨rfl, _, hanswer, hcurrent, hnumber, hkeys, hbound, hsteps, hrows,
    optimize_no_dearer {} rfl _ orderedBooks bookSchema _ hanswer hcurrent hnumber hkeys hbound
      hsteps fun _ => hrows⟩

/-- The optimizer takes no step but this one to change the query, and the result costs more. -/
def MakesDearer (kind : OptimizationKind) (q : Query) (s : Schema) : Prop :=
  ∃ r, ((ofSettings {}).optimize q s).1 = .ok r ∧
    (∀ o ∈ r.steps, o.kind = kind ∨ o.kind = .indexHint) ∧ r.costBefore < r.cost

theorem makesDearer_of_run {kind : OptimizationKind} {q : Query} {s : Schema}
    (hvalid : q.validate = .ok ())
    (hrun : (q.optimize ⟨s, {}⟩).map (fun r => decide
      ((∀ o ∈ r.steps, o.kind = kind ∨ o.kind = .indexHint) ∧ r.costBefore < r.cost)) =
        .ok true) : MakesDearer kind q s := by
  obtain ⟨r, hr, hfacts⟩ := (Failure.map_eq_ok_iff _ _ _).1 hrun
  obtain ⟨hsteps, hless⟩ := of_decide_eq_true hfacts
  obtain ⟨n, hanswer⟩ := optimize_of_empty (o := ofSettings {}) rfl hvalid hr
  exact ⟨_, hanswer, hsteps, hless⟩

/-- The orders of each customer and total, counted; the keys are missing. -/
def customerTotals : Query where
  source := "orders"
  items := [.column ⟨"orders", "customer_id", none⟩, .column ⟨"orders", "total", none⟩,
    .aggregate (.countRows "orders")]

/-- All orders, counted, under a condition that always holds. -/
def countedOrders : Query where
  source := "orders"
  items := [.aggregate (.countRows "orders")]
  filters := [⟨.literal (.integer 1), .eq, .literal (.integer 1)⟩]

/-- Orders of customers of a certain age, which the join tests, and a certain income. -/
def poorOrders : Query where
  source := "orders"
  items := [.column ⟨"orders", "id", none⟩]
  joins := [
    { left := ⟨"orders", "customer_id", none⟩, right := ⟨"customers", "id", none⟩
      conditions := [.compare ⟨"customers", "age", none⟩ .gt (.integer 20),
        .compare ⟨"customers", "age", none⟩ .lt (.integer 60)] }]
  filters := [⟨.column ⟨"customers", "income", none⟩, .between,
    .range (.integer 10) (.integer 20)⟩]

/-- Each of four steps makes some plan dearer, with the settings as they are to begin with.  With a
cost constant that is no number, which the check of the settings lets pass, no cost is at most
another. -/
theorem optimize_dearer :
    ({} : Settings).check = .ok () ∧
      MakesDearer .groupByCompletion customerTotals {} ∧
      MakesDearer .constantFolding countedOrders {} ∧
      MakesDearer .subqueryUnnest knownOrders (customerSchema 100) ∧
      MakesDearer .predicatePushdown poorOrders {} ∧
      ∃ c : Settings, c.check = .ok () ∧
        ∃ r, ((ofSettings c.optimizer).optimize countedOrders {}).1 = .ok r ∧
          ¬ r.cost ≤ r.costBefore := by
  refine ⟨rfl, makesDearer_of_run rfl (by decide +kernel),
    makesDearer_of_run rfl (by decide +kernel), makesDearer_of_run rfl (by decide +kernel),
    makesDearer_of_run rfl (by decide +kernel),
    { optimizer := { cpuCost := 0.0 / 0.0 } }, by decide +kernel, ?_⟩
  have hrun : (countedOrders.optimize ⟨{}, { cpuCost := 0.0 / 0.0 }⟩).map
      (fun r => decide (¬ r.cost ≤ r.costBefore)) = .ok true := by decide +kernel
  obtain ⟨r, hr, hfacts⟩ := (Failure.map_eq_ok_iff _ _ _).1 hrun
  obtain ⟨n, hanswer⟩ := optimize_of_empty
    (o := ofSettings { cpuCost := 0.0 / 0.0 }) rfl (rfl : countedOrders.validate = .ok ()) hr
  exact ⟨_, hanswer, of_decide_eq_true hfacts⟩

end Optimizer
end AskSql
