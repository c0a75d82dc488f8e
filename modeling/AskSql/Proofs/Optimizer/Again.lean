import AskSql.Proofs.Optimizer.Steps
import AskSql.Proofs.Reshape.Pushdown
import AskSql.Proofs.Reshape.Settled

/-!
# Optimizing a result once more

The optimizer takes its steps once, in a fixed order, and a later step may make room for an earlier
one.  Where this does not happen, a result is optimized to itself, at the same cost, with the same
plan and the same advice (`optimize_again`).  It happens in three ways only:

* folding finds something in the result.  It turns a list of one value into a comparison and leaves
  it at that; between two literals this comparison may hold always, and the second run drops it and
  charges for a condition less (`optimize_again_cheaper`).  Conditions that stand behind a join and
  in the filter are found to be the same only once both stand behind the join;
* the tables are joined in another order, which leaves conditions in the filter that could now be
  pushed into a join;
* a subquery becomes a join, behind the search for an order and with conditions that have not been
  folded.
-/

namespace AskSql
namespace Query

/-! ### One step -/

theorem items_eq_of_beq {p q : Query} (h : (p == q) = true) :
    p.items = q.items ∧ p.groupBy = q.groupBy := by
  cases p
  cases q
  change Query.beq _ _ = true at h
  simp only [Query.beq, Bool.and_eq_true, beq_iff_eq] at h
  exact ⟨h.1.1.1.1.1.1.1.2, h.1.1.1.1.2⟩

theorem length_eq_of_listBeq {cs ds : List Condition} (h : Condition.listBeq cs ds = true) :
    cs.length = ds.length := by
  induction cs generalizing ds with
  | nil =>
      cases ds with
      | nil => rfl
      | cons d ds => simp [Condition.listBeq] at h
  | cons c cs ih =>
      cases ds with
      | nil => simp [Condition.listBeq] at h
      | cons d ds =>
          simp only [Condition.listBeq, Bool.and_eq_true] at h
          rw [List.length_cons, List.length_cons, ih h.2]

theorem length_filters_eq_of_beq {p q : Query} (h : (p == q) = true) :
    p.filters.length = q.filters.length := by
  cases p
  cases q
  change Query.beq _ _ = true at h
  simp only [Query.beq, Bool.and_eq_true] at h
  exact length_eq_of_listBeq h.1.1.1.1.1.2

/-- A step gives what its pass makes of the query, if the pass changes no query that it reports
nothing on, and none into one that looks the same. -/
theorem fst_reshape {kind : OptimizationKind} {pass : Query → Reshaped} {acc : Logged}
    (hnone : (pass acc.1).note = none → (pass acc.1).query = acc.1)
    (hsame : ((pass acc.1).query == acc.1) = true → (pass acc.1).query = acc.1) :
    (reshape kind pass acc).1 = (pass acc.1).query := by
  unfold reshape
  dsimp only
  split
  · split
    · next hbeq => exact (hsame hbeq).symm
    · rfl
  · next hnote => exact (hnone hnote).symm

theorem fst_reshape_of_note_eq_none {kind : OptimizationKind} {pass : Query → Reshaped}
    {acc : Logged} (h : (pass acc.1).note = none) : (reshape kind pass acc).1 = acc.1 := by
  simp only [reshape, h]

/-- A step that is not listed has not been taken. -/
theorem fst_reshape_of_not_mem {kind : OptimizationKind} {pass : Query → Reshaped} {acc : Logged}
    (h : ∀ o ∈ (reshape kind pass acc).2, o.kind ≠ kind) : (reshape kind pass acc).1 = acc.1 := by
  unfold reshape at h ⊢
  dsimp only at h ⊢
  split at h
  · next note hnote =>
      split at h
      · next hbeq => rw [if_pos hbeq]
      · exact absurd rfl (h ⟨kind, note⟩ (by simp))
  · rfl

theorem subset_reshape (kind : OptimizationKind) (pass : Query → Reshaped) (acc : Logged) :
    acc.2 ⊆ (reshape kind pass acc).2 := by
  unfold reshape
  dsimp only
  split
  · split
    · exact List.Subset.refl _
    · exact List.subset_append_left _ _
  · exact List.Subset.refl _

theorem fst_optimizeJoins_of_not_mem {m : CostModel} {acc : Logged}
    (h : ∀ o ∈ (optimizeJoins m acc).2, o.kind ≠ .joinReorder) :
    (optimizeJoins m acc).1 = acc.1 := by
  unfold optimizeJoins at h ⊢
  split at h
  · exact absurd rfl (h _ (List.mem_append_right _ List.mem_cons_self))
  · rfl
  · rfl
  · rfl

theorem subset_optimizeJoins (m : CostModel) (acc : Logged) :
    acc.2 ⊆ (optimizeJoins m acc).2 := by
  unfold optimizeJoins
  split
  · exact List.subset_append_left _ _
  · exact subset_note _ _ _
  · exact List.Subset.refl _
  · exact List.Subset.refl _

theorem fst_reshape_pushDown (kind : OptimizationKind) (acc : Logged) :
    (reshape kind pushDown acc).1 = acc.1.pushDown.query := by
  apply fst_reshape
  · intro hnote
    apply pushDown_of_forall
    have hnone : acc.1.filters.filterMap acc.1.pushTarget? = [] := by
      unfold pushDown at hnote
      dsimp only at hnote
      split at hnote
      · next h => exact List.isEmpty_iff.1 h
      · cases hnote
    rwa [List.filterMap_eq_nil_iff] at hnone
  · intro hbeq
    apply pushDown_of_forall
    have hlength := length_filters_eq_of_beq hbeq
    have hall : ∀ c ∈ acc.1.filters, (acc.1.pushTarget? c).isNone = true :=
      List.length_filter_eq_length_iff.1 hlength
    exact fun c hc => Option.isNone_iff_eq_none.1 (hall c hc)

theorem fst_reshape_completeGrouping (kind : OptimizationKind) (acc : Logged) :
    (reshape kind completeGrouping acc).1 = acc.1.completeGrouping.query := by
  apply fst_reshape
  -- nothing is noted, so nothing was left out
  · intro hnote
    have hnotes : (acc.1.ungrouped.map fun c => "grouped " ++ c.path) ++
        acc.1.unselectedKeys.map (fun c => "projected " ++ c.path) = [] := by
      simp only [completeGrouping, joinNotes] at hnote
      split at hnote
      · next h => exact List.isEmpty_iff.1 h
      · cases hnote
    simp only [List.append_eq_nil_iff, List.map_eq_nil_iff] at hnotes
    exact completeGrouping_of_nil hnotes.1 hnotes.2
  -- the query stays the same, so nothing was put in
  · intro hbeq
    obtain ⟨hitems, hkeys⟩ := items_eq_of_beq hbeq
    have hungrouped : acc.1.ungrouped = [] := by
      simpa [completeGrouping, completedKeys] using hkeys
    have hunselected : acc.1.unselectedKeys = [] := by
      have hlength := congrArg List.length hitems
      have hsplit := congrArg List.length
        (List.takeWhile_append_dropWhile (p := fun i : Item => !i.isAggregate) (l := acc.1.items))
      simp only [completeGrouping, insertItems, List.length_append, List.length_map]
        at hlength hsplit
      exact List.eq_nil_of_length_eq_zero (by omega)
    exact completeGrouping_of_nil hungrouped hunselected

theorem fst_reshape_dedupGrouping (kind : OptimizationKind) (acc : Logged) :
    (reshape kind dedupGrouping acc).1 = acc.1.dedupGrouping.query := by
  apply fst_reshape
  · intro hnote
    apply dedupGrouping_of_distinctKeys
    have hsublist : acc.1.distinctKeys.Sublist acc.1.groupBy :=
      sublist_foldl_addKey [] acc.1.groupBy
    apply hsublist.eq_of_length_le
    simp only [dedupGrouping] at hnote
    split at hnote
    · next h =>
        rw [beq_iff_eq] at h
        omega
    · cases hnote
  · intro hbeq
    exact dedupGrouping_of_distinctKeys (items_eq_of_beq hbeq).2

/-! ### All steps -/

theorem fst_optimizeGrouping (q : Query) :
    q.optimizeGrouping.1 = q.completeGrouping.query.dedupGrouping.query := by
  rw [optimizeGrouping, fst_reshape_dedupGrouping, fst_reshape_completeGrouping]

theorem grouped_optimizeGrouping (q : Query) : q.optimizeGrouping.1.Grouped := by
  rw [fst_optimizeGrouping]
  exact grouped_dedupGrouping q.completeGrouping_complete

/-- The grouping of a result is complete. -/
theorem Grouped.optimizeGrouping {q : Query} (h : q.Grouped) : q.optimizeGrouping.1 = q := by
  rw [fst_optimizeGrouping, h.complete.completeGrouping, h.dedupGrouping]

/-- Folding and pushing down leave the grouping alone. -/
theorem grouped_optimizeConditions (q : Query) : q.optimizeConditions.1.Grouped := by
  have hgrouped := q.grouped_optimizeGrouping
  have hfolded : (reshape .constantFolding foldConstants q.optimizeGrouping).1.Grouped :=
    of_reshape hgrouped hgrouped.foldConstants
  rw [optimizeConditions, fst_reshape_pushDown]
  exact hfolded.pushDown

theorem pushDown_optimizeConditions (q : Query) :
    q.optimizeConditions.1.pushDown.query = q.optimizeConditions.1 := by
  rw [optimizeConditions, fst_reshape_pushDown, pushDown_pushDown]

/-- What was done before the search for an order is listed after it. -/
theorem subset_optimizeOrder (m : CostModel) (q : Query) :
    q.optimizeConditions.2 ⊆ (q.optimizeOrder m).2 :=
  List.Subset.trans (subset_note _ _ _) (subset_optimizeJoins m _)

theorem subset_optimizeSubqueries (m : CostModel) (q : Query) :
    (q.optimizeOrder m).2 ⊆ (q.optimizeSubqueries m).2 :=
  List.Subset.trans (subset_note _ _ _) (subset_reshape _ _ _)

theorem fst_optimizeSubqueries_of_not_mem {m : CostModel} {q : Query}
    (h : ∀ o ∈ (q.optimizeSubqueries m).2, o.kind ≠ .subqueryUnnest) :
    (q.optimizeSubqueries m).1 = (q.optimizeOrder m).1 := by
  rw [optimizeSubqueries] at h ⊢
  rw [fst_reshape_of_not_mem h, fst_note]

/-- No step changes the query. -/
structure Settled (m : CostModel) (q : Query) : Prop where
  grouped : q.Grouped
  folded : m.settings.enableAdvanced = true → q.foldConstants.note = none
  pushed : m.settings.enableAdvanced = true → q.pushDown.query = q
  ordered : m.settings.enableAdvanced = true → (optimizeJoins m (q, [])).1 = q
  unnested : m.settings.enableAdvanced = true →
    (reshape .subqueryUnnest (unnest m.schema) (q, [])).1 = q

/-- The result for a query of which `q` was made, as far as `q` itself says what is in it. -/
def outcome (m : CostModel) (given q : Query) (steps : List Optimization) : Optimized :=
  let hints := if m.settings.enableAdvanced then q.indexHints m.schema else []
  { query := q
    plan := m.plan .nestedLoop q
    cost := m.planCost q
    costBefore := m.planCost given
    steps
    alternatives := if m.settings.enableAdvanced then q.alternatives m else []
    recommendations := q.recommendations m hints
    requiredColumns := if m.settings.enableAdvanced then q.requiredColumns else []
    indexHints := hints }

/-- A settled query that passes the check is optimized to itself. -/
theorem Settled.exists_optimize_eq {m : CostModel} {q : Query} (h : q.Settled m)
    (hvalid : q.validate = .ok ()) : ∃ steps, q.optimize m = .ok (outcome m q q steps) := by
  have hgrouped : q.optimizeGrouping.1 = q := h.grouped.optimizeGrouping
  rw [optimize_eq]
  unfold outcome
  split
  · next hadvanced =>
      -- each pass leaves the query as it finds it, one after the other
      have hconditions : q.optimizeConditions.1 = q := by
        have hnote := h.folded hadvanced
        rw [← hgrouped] at hnote
        rw [optimizeConditions, fst_reshape_pushDown, fst_reshape_of_note_eq_none hnote, hgrouped,
          h.pushed hadvanced]
      have horder : (q.optimizeOrder m).1 = q := by
        rw [fst_optimizeOrder, hconditions, h.ordered hadvanced]
      have hsubqueries : (q.optimizeSubqueries m).1 = q := by
        rw [fst_optimizeSubqueries, horder, h.unnested hadvanced]
      refine ⟨(q.optimizeSubqueries m).2, ?_⟩
      rw [finish_eq_ok_iff, hsubqueries, horder, hconditions]
      exact ⟨hvalid, rfl⟩
  · refine ⟨q.optimizeGrouping.2, ?_⟩
    rw [finish_eq_ok_iff, hgrouped]
    exact ⟨hvalid, rfl⟩

/-- What comes of a query without another order of its tables and without a subquery that becomes a
join is settled, as soon as folding finds nothing in it. -/
theorem settled_of_optimize {m : CostModel} {q : Query} {r : Optimized}
    (h : q.optimize m = .ok r)
    (hsteps : ∀ o ∈ r.steps, o.kind ≠ .joinReorder ∧ o.kind ≠ .subqueryUnnest)
    (hfold : m.settings.enableAdvanced = true → r.query.foldConstants.note = none) :
    r.query.Settled m ∧ r.query.validate = .ok () ∧ r = outcome m q r.query r.steps := by
  rw [optimize_eq] at h
  split at h
  · next hadvanced =>
      obtain ⟨hvalid, hr⟩ := finish_eq_ok_iff.1 h
      have hquery : r.query = (q.optimizeSubqueries m).1 := by rw [hr]
      have hlisted : r.steps = (q.optimizeSubqueries m).2 := by rw [hr]
      rw [hlisted] at hsteps
      -- neither of the two steps was taken, so the result is what was pushed down
      have hunnested : (q.optimizeSubqueries m).1 = (q.optimizeOrder m).1 :=
        fst_optimizeSubqueries_of_not_mem fun o ho => (hsteps o ho).2
      have hordered : (q.optimizeOrder m).1 = q.optimizeConditions.1 := by
        have hkept : ∀ o ∈ (q.optimizeOrder m).2, o.kind ≠ .joinReorder := fun o ho =>
          (hsteps o (subset_optimizeSubqueries m q ho)).1
        rw [optimizeOrder] at hkept ⊢
        rw [fst_optimizeJoins_of_not_mem hkept, fst_note]
      have hp : r.query = q.optimizeConditions.1 := hquery.trans (hunnested.trans hordered)
      refine ⟨⟨?_, hfold, ?_, ?_, ?_⟩, hquery ▸ hvalid, ?_⟩
      · rw [hp]
        exact q.grouped_optimizeConditions
      · intro _
        rw [hp, pushDown_optimizeConditions]
      · intro _
        rw [hp, ← fst_optimizeOrder, hordered]
      · intro _
        rw [hp, ← hordered, ← fst_optimizeSubqueries, hunnested]
      · rw [hr]
        simp only [outcome, hadvanced, hunnested, hordered, if_true]
  · next hplain =>
      obtain ⟨hvalid, hr⟩ := finish_eq_ok_iff.1 h
      have hquery : r.query = q.optimizeGrouping.1 := by rw [hr]
      refine ⟨⟨hquery ▸ q.grouped_optimizeGrouping, ?_, ?_, ?_, ?_⟩, hquery ▸ hvalid, ?_⟩
      · exact fun hadvanced => absurd hadvanced hplain
      · exact fun hadvanced => absurd hadvanced hplain
      · exact fun hadvanced => absurd hadvanced hplain
      · exact fun hadvanced => absurd hadvanced hplain
      · rw [hr]
        simp only [outcome, if_neg hplain]

/-- A result in which folding finds nothing, and which came about without another order of the
tables and without a subquery that became a join, is optimized to itself. -/
theorem optimize_again {m : CostModel} {q : Query} {r : Optimized} (h : q.optimize m = .ok r)
    (hsteps : ∀ o ∈ r.steps, o.kind ≠ .joinReorder ∧ o.kind ≠ .subqueryUnnest)
    (hfold : m.settings.enableAdvanced = true → r.query.foldConstants.note = none) :
    ∃ steps, r.query.optimize m = .ok { r with costBefore := r.cost, steps } := by
  obtain ⟨hsettled, hvalid, hr⟩ := settled_of_optimize h hsteps hfold
  obtain ⟨steps, hagain⟩ := hsettled.exists_optimize_eq hvalid
  refine ⟨steps, ?_⟩
  rw [hagain, hr]
  rfl

/-- One condition of `openRomanOrders` is pushed down, and that is all that can be done. -/
theorem optimize_again_openRomanOrders :
    ∃ r steps, openRomanOrders.optimize ⟨{}, {}⟩ = .ok r ∧
      (∀ o ∈ r.steps, o.kind ≠ .joinReorder ∧ o.kind ≠ .subqueryUnnest) ∧
      r.query.foldConstants.note = none ∧
      r.query.optimize ⟨{}, {}⟩ = .ok { r with costBefore := r.cost, steps } := by
  have hrun : (openRomanOrders.optimize ⟨{}, {}⟩).map (fun r => decide
      ((∀ o ∈ r.steps, o.kind ≠ .joinReorder ∧ o.kind ≠ .subqueryUnnest) ∧
        r.query.foldConstants.note = none)) = .ok true := by
    decide +kernel
  obtain ⟨r, hr, hfacts⟩ := (Failure.map_eq_ok_iff _ _ _).1 hrun
  obtain ⟨hsteps, hfold⟩ := of_decide_eq_true hfacts
  obtain ⟨steps, hagain⟩ := optimize_again hr hsteps fun _ => hfold
  exact ⟨r, steps, hr, hsteps, hfold, hagain⟩

/-- The orders for which 1 is among the numbers 1. -/
def trivialOrders : Query where
  source := "orders"
  items := [.column ⟨"orders", "id", none⟩]
  filters := [⟨.literal (.integer 1), .isIn, .list [.integer 1]⟩]

/-- The first run makes of the list the comparison of 1 with 1 and charges for it, the second one
drops it. -/
theorem optimize_again_cheaper :
    ({} : Settings).check = .ok () ∧ trivialOrders.validate = .ok () ∧
      ∃ r r', trivialOrders.optimize ⟨{}, {}⟩ = .ok r ∧ r.query.optimize ⟨{}, {}⟩ = .ok r' ∧
        r'.cost < r.cost := by
  refine ⟨rfl, rfl, ?_⟩
  have hrun : (trivialOrders.optimize ⟨{}, {}⟩ >>= fun r =>
      (r.query.optimize ⟨{}, {}⟩).map fun r' => decide (r'.cost < r.cost)) = .ok true := by
    decide +kernel
  obtain ⟨r, hr, hagain⟩ := (Failure.bind_eq_ok_iff _ _ _).1 hrun
  obtain ⟨r', hr', hless⟩ := (Failure.map_eq_ok_iff _ _ _).1 hagain
  exact ⟨r, r', hr, hr', of_decide_eq_true hless⟩

end Query
end AskSql
