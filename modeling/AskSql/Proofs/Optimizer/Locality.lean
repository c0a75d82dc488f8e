import AskSql.Proofs.JoinOrder.Locality
import AskSql.Proofs.Optimizer.Steps
import AskSql.Proofs.Query.Nested
import AskSql.Proofs.Text.Sorted

/-!
# What the optimizer takes from the schema

The optimizer looks up the tables that a query reads, those in its subqueries included, and no
others: schemas that say the same about these lead to the same result (`Query.optimize_congr`).
Subqueries count at any depth, as one that becomes a join hands its own subqueries on.
-/

namespace AskSql
namespace Query

/-- A valid query, and two schemas that say the same about all that it reads. -/
structure ReadsSame (s s' : Schema) (q : Query) : Prop where
  valid : q.validate = .ok ()
  same : ∀ t, q.Reads t → s.SameTable s' t

variable {s s' : Schema} {o : OptimizerSettings} {S : Query → Prop} {q : Query}

theorem ReadsSame.sameTables (h : q.ReadsSame s s') : q.SameTables s s' (ReadsSame s s') := by
  have hscoped : q.WellScoped := (validate_eq_ok_iff q).1 h.valid
  refine ⟨h.same _ (.table List.mem_cons_self), mentions_iff.2 ⟨?_, ?_⟩⟩
  · intro x hx
    obtain ⟨t, ht, hfold⟩ := List.mem_map.1 (hscoped.references_known x hx)
    exact (h.same t (.table ht)).of_lower_eq hfold.symm
  · intro c hc sub hsub
    refine ⟨hscoped.subqueries_valid c hc sub hsub, fun t ht => ?_⟩
    exact h.same t (.subquery (mem_subqueries.2 ⟨c, hc, hsub⟩) ht)

theorem SameTables.subqueries (h : q.SameTables s s' S) : ∀ sub ∈ q.subqueries, S sub := by
  intro sub hsub
  obtain ⟨c, hc, hrhs⟩ := mem_subqueries.1 hsub
  exact (h.mentions.conditions c hc).subquery sub hrhs

theorem SameTables.references (h : q.SameTables s s' S) :
    ∀ x ∈ q.references, s.SameTable s' x.2.table :=
  (mentions_iff.1 h.mentions).1

/-! ### Columns -/

/-- Columns are needed of the tables that are mentioned. -/
theorem exists_reference_of_mem_requiredColumns {e : String × List String}
    (h : e ∈ q.requiredColumns) : ∃ x ∈ q.references, e.1 = x.2.tableKey := by
  have hfold : ∀ (rs : List (Clause × Reference)) (sets : ColumnSets),
      e ∈ rs.foldl (fun sets x => sets.add x.2) sets →
        (∃ x ∈ rs, e.1 = x.2.tableKey) ∨ ∃ d ∈ sets, d.1 = e.1 := by
    intro rs
    induction rs with
    | nil => exact fun sets he => .inr ⟨e, he, rfl⟩
    | cons x rs ih =>
        intro sets he
        obtain ⟨y, hy, hkey⟩ | ⟨d, hd, hkey⟩ := ih _ he
        · exact .inl ⟨y, List.mem_cons_of_mem _ hy, hkey⟩
        · obtain hd | ⟨d', hd', hkey'⟩ := Text.eq_or_mem_of_mem_upsert hd
          · exact .inl ⟨x, List.mem_cons_self, hkey.symm.trans hd⟩
          · exact .inr ⟨d', hd', hkey'.trans hkey⟩
  obtain hx | ⟨d, hd, -⟩ := hfold q.references [] h
  · exact hx
  · cases hd

theorem pruningNote?_congr (h : q.SameTables s s' S) :
    pruningNote? s q.requiredColumns = pruningNote? s' q.requiredColumns := by
  have hskipped : ∀ e ∈ q.requiredColumns,
      skippedColumns s e.1 e.2 = skippedColumns s' e.1 e.2 := by
    intro e he
    obtain ⟨x, hx, hkey⟩ := exists_reference_of_mem_requiredColumns he
    have hsame : s.SameTable s' e.1 :=
      (h.references x hx).of_lower_eq (by rw [hkey, Reference.tableKey, Text.lower_lower])
    rw [skippedColumns, skippedColumns, Schema.map_table?_congr
      (fun _ _ houtline => by rw [Table.length_columns_congr houtline]) hsame.outline]
  rw [pruningNote?, pruningNote?, List.map_congr_left hskipped]

theorem addHint_congr {r : Reference} (h : s.SameTable s' r.table) (hints : List IndexHint)
    (clause : Clause) : addHint s hints clause r = addHint s' hints clause r := by
  have hindex := Schema.hasIndex_congr h.outline r.column
  unfold addHint
  obtain ⟨hc, hc'⟩ | ⟨c, c', hc, hc', hindexed⟩ := cases_of_map_eq hindex
  · rw [hc, hc']
  · rw [hc, hc']
    cases clause.indexUse? with
    | none => rfl
    | some usage => simp only [hindexed]

theorem indexHints_congr (h : q.SameTables s s' S) : q.indexHints s = q.indexHints s' :=
  List.foldl_ext _ _ _ fun hints x hx => addHint_congr (h.references x hx) hints x.1

theorem forall_addHint {s : Schema} {P : String → Prop} {hints : List IndexHint} {clause : Clause}
    {r : Reference} (h : ∀ hint ∈ hints, P hint.table) (hr : P r.table) :
    ∀ hint ∈ addHint s hints clause r, P hint.table := by
  unfold addHint
  split
  · split
    · exact h
    · rw [List.forall_mem_append, List.forall_mem_singleton]
      exact ⟨h, hr⟩
  · exact h

/-- Hints are on columns of the tables that are mentioned. -/
theorem forall_indexHints {s : Schema} {P : String → Prop}
    (h : ∀ x ∈ q.references, P x.2.table) : ∀ hint ∈ q.indexHints s, P hint.table := by
  have hfold : ∀ (rs : List (Clause × Reference)) (hints : List IndexHint),
      (∀ x ∈ rs, P x.2.table) → (∀ hint ∈ hints, P hint.table) →
        ∀ hint ∈ rs.foldl (fun hints x => addHint s hints x.1 x.2) hints, P hint.table := by
    intro rs
    induction rs with
    | nil => exact fun _ _ hhints => hhints
    | cons x rs ih =>
        intro hints hrs hhints
        obtain ⟨hx, hrs⟩ := List.forall_mem_cons.1 hrs
        exact ih _ hrs (forall_addHint hhints hx)
  exact hfold q.references [] h (by simp)

theorem SameTables.indexHints (h : q.SameTables s s' S) (s₀ : Schema) :
    ∀ hint ∈ q.indexHints s₀, s.SameTable s' hint.table :=
  forall_indexHints h.references

/-! ### Subqueries -/

theorem selectedKey?_congr (h : s.outline? q.source = s'.outline? q.source) :
    q.selectedKey? s = q.selectedKey? s' := by
  have hprimary : ((s.table? q.source).bind Table.primaryKey?).map Column.outline =
      ((s'.table? q.source).bind Table.primaryKey?).map Column.outline := by
    have hjoin : ∀ s : Schema, ((s.table? q.source).bind Table.primaryKey?).map Column.outline =
        ((s.table? q.source).map fun t => t.primaryKey?.map Column.outline).join := by
      intro s
      cases s.table? q.source with
      | none => rfl
      | some t => rfl
    have hkey := fun t u => Table.primaryKey?_congr (t := t) (u := u)
    rw [hjoin, hjoin, Schema.map_table?_congr hkey h]
  -- of the primary key no more than its outline is read
  have hselected : ∀ s : Schema, q.selectedKey? s = q.plainColumns.head?.bind fun key =>
      (((s.table? q.source).bind Table.primaryKey?).map Column.outline).bind fun primary =>
        if !key.isStar && Text.sameFold key.column primary.1 &&
            Text.sameFold key.table q.source then
          some key
        else none := by
    intro s
    unfold selectedKey?
    cases q.plainColumns.head? with
    | none => rfl
    | some key =>
        cases s.table? q.source with
        | none => rfl
        | some t =>
            cases hprimary : t.primaryKey? with
            | none => simp [hprimary]
            | some primary => simp [hprimary, Column.outline]
  rw [hselected, hselected, hprimary]

theorem unnest_congr (h : q.SameTables s s' S) (hS : ∀ sub, S sub → s.SameTable s' sub.source) :
    q.unnest s = q.unnest s' := by
  have hcondition : ∀ c ∈ q.filters, ∀ tables, c.unnested? s tables = c.unnested? s' tables := by
    intro c hc tables
    unfold Condition.unnested?
    split
    · next outer sub _ _ hrhs =>
        have hsub : S sub := (h.mentions.filters c hc).subquery sub hrhs
        rw [selectedKey?_congr (hS sub hsub).outline]
    · rfl
  have hstep : ∀ acc, ∀ c ∈ q.filters,
      unnestStep s q.source acc c = unnestStep s' q.source acc c := by
    rintro ⟨joins, kept, tables⟩ c hc
    simp only [unnestStep, hcondition c hc]
  rw [unnest, unnest, List.foldl_ext _ _ _ hstep]

theorem SameTables.unnest (h : q.SameTables s s' S) (hS : ∀ sub, S sub → sub.SameTables s s' S)
    (s₀ : Schema) : (q.unnest s₀).query.SameTables s s' S :=
  ⟨h.source, h.mentions.unnest (fun _ hr => hr) (fun sub hsub => (hS sub hsub).mentions) s₀⟩

/-! ### Advice -/

theorem subqueryAlternative?_congr (h : q.SameTables s s' S)
    (hS : ∀ sub, S sub → ∀ t ∈ sub.tables, s.SameTable s' t) :
    q.subqueryAlternative? ⟨s, o⟩ = q.subqueryAlternative? ⟨s', o⟩ := by
  have houter : CostModel.planCost ⟨s, o⟩ q.withoutSubqueries =
      CostModel.planCost ⟨s', o⟩ q.withoutSubqueries := CostModel.planCost_congr h.tables
  have hinner : ∀ (cost : Float), ∀ sub ∈ q.subqueries,
      cost + CostModel.planCost ⟨s, o⟩ sub = cost + CostModel.planCost ⟨s', o⟩ sub := by
    intro cost sub hsub
    rw [CostModel.planCost_congr (hS sub (h.subqueries sub hsub))]
  unfold subqueryAlternative?
  dsimp only
  rw [houter, List.foldl_ext _ _ _ hinner]

theorem alternatives_congr (h : q.SameTables s s' S)
    (hS : ∀ sub, S sub → ∀ t ∈ sub.tables, s.SameTable s' t) :
    q.alternatives ⟨s, o⟩ = q.alternatives ⟨s', o⟩ := by
  rw [alternatives, alternatives, orderAlternatives, orderAlternatives, hashAlternative?,
    hashAlternative?, alternativeOrders_congr h, CostModel.plan_congr h.tables,
    subqueryAlternative?_congr h hS]

theorem statisticsAdvice_congr (h : q.SameTables s s' S) :
    q.statisticsAdvice ⟨s, o⟩ = q.statisticsAdvice ⟨s', o⟩ := by
  have hknown : ∀ t ∈ q.tables,
      ((s.table? t).isSome && (s.rowCount? t).isNone) =
        ((s'.table? t).isSome && (s'.rowCount? t).isNone) := by
    intro t ht
    obtain ⟨houtline, hrows⟩ := h.tables t ht
    have hsome := congrArg Option.isSome houtline
    rw [Schema.outline?, Schema.outline?, Option.isSome_map, Option.isSome_map] at hsome
    rw [hsome, hrows]
  rw [statisticsAdvice, statisticsAdvice, List.filter_congr hknown]

theorem recommendations_congr (h : q.SameTables s s' S) {hints : List IndexHint}
    (hhints : ∀ hint ∈ hints, s.SameTable s' hint.table) :
    q.recommendations ⟨s, o⟩ hints = q.recommendations ⟨s', o⟩ hints := by
  have hindex : ∀ acc, ∀ hint ∈ hints,
      addIndexAdvice ⟨s, o⟩ acc hint = addIndexAdvice ⟨s', o⟩ acc hint := by
    intro acc hint hhint
    rw [addIndexAdvice, addIndexAdvice, CostModel.tableRows_congr (hhints hint hhint)]
  have hpartition : ∀ acc, ∀ c ∈ q.conditions,
      addPartitionAdvice ⟨s, o⟩ acc c = addPartitionAdvice ⟨s', o⟩ acc c := by
    intro acc c hc
    unfold addPartitionAdvice
    split
    · next r hlhs =>
        have hr : r ∈ c.references := by
          apply Condition.mem_references_of_lhs
          rw [hlhs]
          exact List.mem_cons_self
        rw [CostModel.tableRows_congr ((h.mentions.conditions c hc).references r hr)]
    · rfl
  rw [recommendations, recommendations, statisticsAdvice_congr h, List.foldl_ext _ _ _ hindex,
    List.foldl_ext _ _ _ hpartition]

/-! ### All steps -/

theorem kept_sameTables : Kept (SameTables s s' S) where
  completeGrouping h := ⟨h.source, h.mentions.completeGrouping fun _ hr => hr⟩
  dedupGrouping h := ⟨h.source, h.mentions.dedupGrouping⟩
  foldConstants h := ⟨h.source, h.mentions.foldConstants⟩
  pushDown h := ⟨h.source, h.mentions.pushDown⟩
  reordered h hsearch := by
    obtain ⟨order, horder, hc⟩ := searchJoins_reordered hsearch
    exact h.reordered? (lt_of_mem_order horder) hc

theorem optimizeJoins_congr {acc : Logged} (h : acc.1.SameTables s s' S) :
    optimizeJoins ⟨s, o⟩ acc = optimizeJoins ⟨s', o⟩ acc := by
  rw [optimizeJoins, optimizeJoins, searchJoins_congr h]

theorem optimizeOrder_congr (h : q.SameTables s s' S) :
    q.optimizeOrder ⟨s, o⟩ = q.optimizeOrder ⟨s', o⟩ := by
  have hconditions := kept_sameTables.optimizeConditions h
  rw [optimizeOrder, optimizeOrder, pruningNote?_congr hconditions]
  apply optimizeJoins_congr (S := S)
  rw [fst_note]
  exact hconditions

theorem optimizeSubqueries_congr (h : q.SameTables s s' S)
    (hS : ∀ sub, S sub → sub.SameTables s s' S) :
    q.optimizeSubqueries ⟨s, o⟩ = q.optimizeSubqueries ⟨s', o⟩ := by
  have horder := kept_sameTables.optimizeOrder h ⟨s', o⟩
  rw [optimizeSubqueries, optimizeSubqueries, optimizeOrder_congr h, indexHints_congr horder,
    reshape, reshape, fst_note, unnest_congr horder fun sub hsub => (hS sub hsub).source]

theorem finish_congr {acc : Logged} (h : q.SameTables s s' S) (hacc : acc.1.SameTables s s' S)
    {hints : List IndexHint} (hhints : ∀ hint ∈ hints, s.SameTable s' hint.table)
    (required : ColumnSets) (alternatives : List Alternative) :
    q.finish ⟨s, o⟩ acc required hints alternatives =
      q.finish ⟨s', o⟩ acc required hints alternatives := by
  unfold finish
  dsimp only
  rw [CostModel.plan_congr hacc.tables, CostModel.planCost_congr h.tables,
    recommendations_congr hacc hhints]

/-- The result for a valid query depends on the tables alone that it reads. -/
theorem optimize_congr (h : q.ReadsSame s s') : q.optimize ⟨s, o⟩ = q.optimize ⟨s', o⟩ := by
  have hS : ∀ sub : Query, sub.ReadsSame s s' → sub.SameTables s s' (ReadsSame s s') :=
    fun _ => ReadsSame.sameTables
  have hq : q.SameTables s s' (ReadsSame s s') := h.sameTables
  -- a step hands on a query that mentions no further tables, so the next one looks up the same
  have hordered := kept_sameTables.optimizeOrder hq ⟨s', o⟩
  have hsubqueries := kept_sameTables.optimizeSubqueries (m := ⟨s', o⟩) (fun hp => hp.unnest hS s') hq
  rw [optimize_eq, optimize_eq, optimizeSubqueries_congr hq hS, optimizeOrder_congr hq]
  dsimp only
  split
  · rw [indexHints_congr hordered,
      alternatives_congr hsubqueries fun sub hsub => (hS sub hsub).tables]
    exact finish_congr hq hsubqueries (hordered.indexHints s') _ _
  · exact finish_congr hq (kept_sameTables.optimizeGrouping hq) (by simp) [] []

end Query
end AskSql
