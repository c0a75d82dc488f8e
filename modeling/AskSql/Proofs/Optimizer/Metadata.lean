import AskSql.Proofs.JoinOrder.Reordering
import AskSql.Proofs.Optimizer.Cached

/-!
# What a result says about its query

A result of the optimizer lists the columns that each table has to supply, and hints on the columns
that an index would help with.  Both are taken before subqueries are turned into joins, and no step
that comes later takes up a reference in any other way.  So they cover the query of the result but
for the joins that were subqueries (`Optimized.Describes`).  These bring in tables that the given
query does not read, on which neither the columns nor the hints say anything: where orders are
joined with the customers that a subquery asked for, the key of the customers is not listed
(`Optimizer.answer_leaves_out_customers`).  A result that is kept describes the same query, by the
columns that the schema had when it was computed (`Optimizer.answer_describes`).
-/

namespace AskSql

/-! ### Columns by table -/

namespace ColumnSets

variable {sets : ColumnSets} {r x : Reference}

/-- The column is listed under its table. -/
def Has (sets : ColumnSets) (r : Reference) : Prop :=
  ∃ columns ∈ sets.lookup r.tableKey, Text.lower r.column ∈ columns

instance (sets : ColumnSets) (r : Reference) : Decidable (sets.Has r) :=
  inferInstanceAs (Decidable (∃ columns ∈ sets.lookup r.tableKey, Text.lower r.column ∈ columns))

theorem has_add_self (h : Text.InOrder sets) : (sets.add r).Has r :=
  ⟨_, Text.lookup_upsert_self h, Text.mem_insertWord.2 (.inl rfl)⟩

theorem Has.add (h : sets.Has x) (hsets : Text.InOrder sets) : (sets.add r).Has x := by
  obtain ⟨columns, hcolumns, hmem⟩ := h
  by_cases htable : x.tableKey = r.tableKey
  · refine ⟨Text.insertWord (Text.lower r.column) columns, ?_, Text.mem_insertWord.2 (.inr hmem)⟩
    rw [htable] at hcolumns ⊢
    rw [ColumnSets.add, Text.lookup_upsert_self hsets, hcolumns]
    rfl
  · refine ⟨columns, ?_, hmem⟩
    rwa [ColumnSets.add, Text.lookup_upsert_of_ne htable]

end ColumnSets

namespace Query

variable {q : Query}

/-- Every reference counts among the columns that its table has to supply. -/
theorem has_requiredColumns : ∀ x ∈ q.references, q.requiredColumns.Has x.2 := by
  have hfold (rs : List (Clause × Reference)) : ∀ sets : ColumnSets, Text.InOrder sets →
      ∀ r, (sets.Has r ∨ ∃ x ∈ rs, x.2 = r) →
        (rs.foldl (fun sets x => sets.add x.2) sets).Has r := by
    induction rs with
    | nil =>
        rintro sets - r (h | ⟨x, hx, -⟩)
        · exact h
        · cases hx
    | cons y rs ih =>
        intro sets hsets r h
        refine ih _ (Text.inOrder_upsert hsets) r ?_
        rcases h with h | ⟨x, hx, rfl⟩
        · exact .inl (h.add hsets)
        · rcases List.mem_cons.1 hx with rfl | hx
          · exact .inl (ColumnSets.has_add_self hsets)
          · exact .inr ⟨x, hx, rfl⟩
  exact fun x hx => hfold q.references [] .nil x.2 (.inr ⟨x, hx, rfl⟩)

/-- No other tables are listed. -/
theorem exists_reference_of_lookup {table : String} {columns : List String}
    (h : q.requiredColumns.lookup table = some columns) :
    ∃ x ∈ q.references, table = x.2.tableKey :=
  exists_reference_of_mem_requiredColumns (Keyed.mem_of_lookup h)

/-! ### Hints -/

variable {s : Schema} {hints : List IndexHint}

theorem subset_addHint (s : Schema) (hints : List IndexHint) (clause : Clause) (r : Reference) :
    hints ⊆ addHint s hints clause r := by
  unfold addHint
  split
  · split
    · exact List.Subset.refl hints
    · exact List.subset_append_left _ _
  · exact List.Subset.refl hints

theorem subset_foldl_addHint (s : Schema) (rs : List (Clause × Reference))
    (hints : List IndexHint) :
    hints ⊆ rs.foldl (fun hints x => addHint s hints x.1 x.2) hints := by
  induction rs generalizing hints with
  | nil => exact List.Subset.refl hints
  | cons x rs ih => exact List.Subset.trans (subset_addHint s hints x.1 x.2) (ih _)

theorem exists_hint_addHint (hints : List IndexHint) {clause : Clause} {r : Reference}
    {usage : IndexUse} (husage : clause.indexUse? = some usage) (hstar : r.isStar = false)
    (hcolumn : (s.column? r.table r.column).isSome = true) :
    ∃ h ∈ addHint s hints clause r, sameHint usage r h = true := by
  obtain ⟨c, hc⟩ := Option.isSome_iff_exists.1 hcolumn
  unfold addHint
  rw [husage, hc, hstar]
  dsimp only
  rw [Bool.false_or]
  split
  · next hany => exact List.any_eq_true.1 hany
  · refine ⟨_, List.mem_append_right _ List.mem_cons_self, ?_⟩
    simp [sameHint]

/-- Every column that is filtered, joined or sorted by has its hint, if the schema has the
column. -/
theorem exists_hint_indexHints {x : Clause × Reference} (hx : x ∈ q.references) {usage : IndexUse}
    (husage : x.1.indexUse? = some usage) (hstar : x.2.isStar = false)
    (hcolumn : (s.column? x.2.table x.2.column).isSome = true) :
    ∃ h ∈ q.indexHints s, sameHint usage x.2 h = true := by
  obtain ⟨before, after, hsplit⟩ := List.append_of_mem hx
  rw [indexHints, hsplit, List.foldl_append, List.foldl_cons]
  obtain ⟨h, hmem, hsame⟩ := exists_hint_addHint
    (before.foldl (fun hints x => addHint s hints x.1 x.2) []) husage hstar hcolumn
  exact ⟨h, subset_foldl_addHint s after _ hmem, hsame⟩

/-! ### Steps that come later -/

theorem references_subset {p q : Query} (hitems : p.items = q.items) (hjoins : p.joins ⊆ q.joins)
    (hfilters : p.filters ⊆ q.filters) (hgroupBy : p.groupBy = q.groupBy)
    (hhaving : p.having = q.having) (horderBy : p.orderBy = q.orderBy) :
    p.references ⊆ q.references := by
  have hwithin {α : Type} (f : α → List Reference) {xs ys : List α} (h : xs ⊆ ys) :
      xs.flatMap f ⊆ ys.flatMap f := by
    intro r hr
    obtain ⟨x, hx, hr⟩ := List.mem_flatMap.1 hr
    exact List.mem_flatMap.2 ⟨x, h hx, hr⟩
  have happend {xs ys xs' ys' : List (Clause × Reference)} (h : xs ⊆ xs') (h' : ys ⊆ ys') :
      xs ++ ys ⊆ xs' ++ ys' :=
    List.append_subset.2 ⟨List.subset_append_of_subset_left _ h,
      List.subset_append_of_subset_right _ h'⟩
  unfold references
  rw [hitems, hgroupBy, hhaving, horderBy]
  refine happend (happend (happend (happend (happend ?_ ?_) ?_) ?_) ?_) ?_
  · exact List.Subset.refl _
  · exact List.map_subset _ (hwithin _ hjoins)
  · exact List.map_subset _ (hwithin _ hfilters)
  · exact List.Subset.refl _
  · exact List.Subset.refl _
  · exact List.Subset.refl _

/-- What becomes of a query when its subqueries are turned into joins: the new joins stand behind
the others and bring in tables of subqueries that the query itself does not read. -/
structure Unnested (q p : Query) : Prop where
  items_eq : p.items = q.items
  groupBy_eq : p.groupBy = q.groupBy
  having_eq : p.having = q.having
  orderBy_eq : p.orderBy = q.orderBy
  filters_subset : p.filters ⊆ q.filters
  joins : ∃ lifted, p.joins = q.joins ++ lifted ∧ ∀ j ∈ lifted,
    j.right.tableKey ∉ q.tableKeys ∧ ∃ sub ∈ q.subqueries, j.right.tableKey = Text.lower sub.source

theorem unnested_self (q : Query) : q.Unnested q :=
  ⟨rfl, rfl, rfl, rfl, List.Subset.refl _, [], (List.append_nil _).symm, nofun⟩

/-- The join for a condition brings in the table of its subquery, which is not there. -/
theorem right_of_unnested? {s : Schema} {tables : List String} {c : Condition} {j : Join}
    (h : c.unnested? s tables = some j) :
    j.right.tableKey ∉ tables.map Text.lower ∧
      ∃ sub, c.rhs = .subquery sub ∧ j.right.tableKey = Text.lower sub.source := by
  obtain ⟨outer, key, sub, rfl, -, hkey, hnew, rfl⟩ := Condition.unnested?_eq_some h
  have htable : key.tableKey = Text.lower sub.source := (selectedKey?_spec hkey).2.1
  rw [← htable] at hnew
  exact ⟨hnew, sub, rfl, htable⟩

theorem unnested_unnest (s : Schema) (q : Query) : q.Unnested (q.unnest s).query := by
  refine unnest_induction s q.unnested_self ?_
  intro joins kept rest c j hacc hj
  obtain ⟨lifted, hjoins, hlifted⟩ := hacc.joins
  have hjoins : joins = q.joins ++ lifted := hjoins
  have hfilters : kept ++ c :: rest ⊆ q.filters := hacc.filters_subset
  obtain ⟨hnew, sub, hsub, htable⟩ := right_of_unnested? hj
  have hfresh : j.right.tableKey ∉ q.tableKeys := by
    intro hmem
    refine hnew (List.map_subset _ ?_ hmem)
    rw [hjoins, List.map_append]
    exact List.cons_subset_cons _ (List.subset_append_left _ _)
  have hread : sub ∈ q.subqueries := by
    refine mem_subqueries.2 ⟨c, ?_, hsub⟩
    have hc : c ∈ q.filters := hfilters (List.mem_append_right _ List.mem_cons_self)
    exact List.mem_append_left _ (List.mem_append_left _ hc)
  refine ⟨rfl, rfl, rfl, rfl, ?_, lifted ++ [j], ?_, ?_⟩
  · have hkept : kept ++ rest ⊆ kept ++ c :: rest :=
      ((List.sublist_cons_self c rest).append_left kept).subset
    exact List.Subset.trans hkept hfilters
  · show joins ++ [j] = _
    rw [hjoins, List.append_assoc]
  · rw [List.forall_mem_append, List.forall_mem_singleton]
    exact ⟨hlifted, hfresh, sub, hread, htable⟩

theorem unnested_optimizeSubqueries (m : CostModel) (q : Query) :
    (q.optimizeOrder m).1.Unnested (q.optimizeSubqueries m).1 := by
  rw [optimizeSubqueries]
  apply of_reshape (R := (q.optimizeOrder m).1.Unnested)
  · rw [fst_note]
    exact unnested_self _
  · rw [fst_note]
    exact unnested_unnest m.schema _

/-- The query reads the tables of another one by joins with the same sides, and passes the check. -/
structure InPlace (q p : Query) : Prop where
  well_scoped : p.WellScoped
  source_eq : p.source = q.source
  sides_eq : p.joinSides = q.joinSides

theorem InPlace.tableKeys_eq {p : Query} (h : q.InPlace p) : p.tableKeys = q.tableKeys :=
  tableKeys_eq_of_joinSides h.source_eq h.sides_eq

theorem InPlace.references_known {p : Query} (h : q.InPlace p) :
    ∀ x ∈ p.references, x.2.tableKey ∈ q.tableKeys :=
  h.tableKeys_eq ▸ h.well_scoped.references_known

namespace InPlace

variable {p p' : Query}

theorem of_mentions (h : q.InPlace p) (hsource : p'.source = p.source)
    (hsides : p'.joinSides = p.joinSides)
    (hmentions : p'.Mentions (fun r => r.tableKey ∈ p.tableKeys) fun sub => sub.validate = .ok ()) :
    q.InPlace p' where
  well_scoped := h.well_scoped.of_joinSides hsource hsides hmentions
  source_eq := hsource.trans h.source_eq
  sides_eq := hsides.trans h.sides_eq

theorem completeGrouping (h : q.InPlace p) : q.InPlace p.completeGrouping.query :=
  h.of_mentions rfl rfl (h.well_scoped.mentions.completeGrouping fun _ hr => hr)

theorem dedupGrouping (h : q.InPlace p) : q.InPlace p.dedupGrouping.query :=
  h.of_mentions rfl rfl h.well_scoped.mentions.dedupGrouping

theorem foldConstants (h : q.InPlace p) : q.InPlace p.foldConstants.query :=
  h.of_mentions rfl (joinSides_foldConstants p) h.well_scoped.mentions.foldConstants

theorem pushDown (h : q.InPlace p) : q.InPlace p.pushDown.query :=
  h.of_mentions rfl (joinSides_pushDown p) h.well_scoped.mentions.pushDown

end InPlace

/-- The steps on grouping and conditions leave the tables where they are. -/
theorem inPlace_optimizeConditions (h : q.WellScoped) : q.InPlace q.optimizeConditions.1 := by
  have hself : q.InPlace q := ⟨h, rfl, rfl⟩
  have hcompleted : q.InPlace (reshape .groupByCompletion completeGrouping (q, [])).1 :=
    of_reshape hself hself.completeGrouping
  have hgrouped : q.InPlace q.optimizeGrouping.1 := by
    rw [optimizeGrouping]
    exact of_reshape hcompleted hcompleted.dedupGrouping
  have hfolded : q.InPlace (reshape .constantFolding foldConstants q.optimizeGrouping).1 :=
    of_reshape hgrouped hgrouped.foldConstants
  rw [optimizeConditions]
  exact of_reshape hfolded hfolded.pushDown

/-- Another order of the joins is one of the same tables. -/
theorem tableKeys_optimizeJoins (h : q.WellScoped) (m : CostModel) :
    (optimizeJoins m (q, [])).1.tableKeys.Perm q.tableKeys := by
  unfold optimizeJoins
  dsimp only
  split
  · next hsearch =>
      obtain ⟨order, horder, hc⟩ := (searchJoins_reordered hsearch).exists_order h
      obtain ⟨c, hc', hreordering⟩ := exists_reordering h horder
      obtain rfl := Option.some.inj (hc'.symm.trans hc)
      exact hreordering.tableKeys_perm horder
  · exact List.Perm.refl _
  · exact List.Perm.refl _
  · exact List.Perm.refl _

theorem tableKeys_optimizeOrder (h : q.WellScoped) (m : CostModel) :
    (q.optimizeOrder m).1.tableKeys.Perm q.tableKeys := by
  have hplace := inPlace_optimizeConditions h
  rw [fst_optimizeOrder, ← hplace.tableKeys_eq]
  exact tableKeys_optimizeJoins hplace.well_scoped m

/-- What is mentioned after any of these steps was mentioned before, maybe with a label. -/
theorem kept_mentions {P : Reference → Prop} {S : Query → Prop}
    (hP : ∀ r, P r → P r.unlabelled) : Kept (Mentions P S) where
  completeGrouping h := h.completeGrouping hP
  dedupGrouping h := h.dedupGrouping
  foldConstants h := h.foldConstants
  pushDown h := h.pushDown
  reordered h hsearch := by
    obtain ⟨order, -, hc⟩ := searchJoins_reordered hsearch
    exact (h.reordered? hc).1

/-! ### The result -/

/-- The query without its joins on tables that another query does not read. -/
def onTablesOf (p q : Query) : Query :=
  { p with joins := p.joins.filter fun j => q.hasTable j.table }

theorem hasTable_iff {table : String} :
    q.hasTable table = true ↔ Text.lower table ∈ q.tableKeys := by
  simp only [hasTable, tableKeys, List.any_eq_true, List.mem_map, Text.sameFold_iff]

theorem hasTable_eq_false_iff {table : String} :
    q.hasTable table = false ↔ Text.lower table ∉ q.tableKeys := by
  rw [← hasTable_iff, Bool.not_eq_true]

/-- Without the new joins nothing is mentioned that was not mentioned before. -/
theorem Unnested.references_onTablesOf {o p : Query} (h : o.Unnested p)
    (hkeys : q.tableKeys ⊆ o.tableKeys) : (p.onTablesOf q).references ⊆ o.references := by
  obtain ⟨lifted, hjoins, hlifted⟩ := h.joins
  refine references_subset h.items_eq ?_ h.filters_subset h.groupBy_eq h.having_eq h.orderBy_eq
  intro j hj
  obtain ⟨hj, hread⟩ := List.mem_filter.1 hj
  rw [hjoins] at hj
  rcases List.mem_append.1 hj with hj | hj
  · exact hj
  · exact absurd (hkeys (hasTable_iff.1 hread)) (hlifted j hj).1

/-- A new join comes from a subquery. -/
theorem Unnested.exists_subquery {o p : Query} (h : o.Unnested p)
    (hkeys : o.tableKeys ⊆ q.tableKeys) {j : Join} (hj : j ∈ p.joins)
    (hread : q.hasTable j.table = false) :
    ∃ sub ∈ o.subqueries, j.right.tableKey = Text.lower sub.source := by
  obtain ⟨lifted, hjoins, hlifted⟩ := h.joins
  rw [hjoins] at hj
  rcases List.mem_append.1 hj with hj | hj
  · exact absurd (hkeys (right_mem_tableKeys hj)) (hasTable_eq_false_iff.1 hread)
  · exact (hlifted j hj).2

end Query

/-- The columns and the hints of a result cover its query, but for the joins on tables that the
given query does not read.  These were subqueries, and nothing is said about their tables. -/
structure Optimized.Describes (q : Query) (s : Schema) (r : Optimized) : Prop where
  supplied : ∀ x ∈ (r.query.onTablesOf q).references, r.requiredColumns.Has x.2
  hinted : ∀ x ∈ (r.query.onTablesOf q).references, ∀ usage, x.1.indexUse? = some usage →
    x.2.isStar = false → (s.column? x.2.table x.2.column).isSome = true →
      ∃ h ∈ r.indexHints, Query.sameHint usage x.2 h = true
  left_out : ∀ j ∈ r.query.joins, q.hasTable j.table = false →
    j.right.tableKey ∈ q.subqueries.map (fun sub => Text.lower sub.source) ∧
      r.requiredColumns.lookup j.right.tableKey = none ∧
      ∀ h ∈ r.indexHints, Text.lower h.table ≠ j.right.tableKey

namespace Query

variable {q : Query} {m : CostModel}

/-- What is mentioned when the joins are in order was listed before they were. -/
theorem mentions_optimizeOrder (h : q.WellScoped) (m : CostModel) :
    (q.optimizeOrder m).1.Mentions
      (fun r => q.optimizeConditions.1.requiredColumns.Has r ∧ r.tableKey ∈ q.tableKeys)
      fun _ => True := by
  have hplace := inPlace_optimizeConditions h
  have hconditions : q.optimizeConditions.1.Mentions
      (fun r => q.optimizeConditions.1.requiredColumns.Has r ∧ r.tableKey ∈ q.tableKeys)
      fun _ => True := by
    refine mentions_iff.2 ⟨fun x hx => ?_, fun _ _ _ _ => trivial⟩
    exact ⟨has_requiredColumns x hx, hplace.references_known x hx⟩
  rw [optimizeOrder]
  apply (kept_mentions fun r hr => hr).optimizeJoins
  rwa [fst_note]

theorem subqueries_optimizeOrder (q : Query) (m : CostModel) :
    (q.optimizeOrder m).1.subqueries ⊆ q.subqueries := by
  have hself : q.Mentions (fun _ => True) fun sub => sub ∈ q.subqueries :=
    mentions_iff.2 ⟨fun _ _ => trivial, fun c hc sub hsub => mem_subqueries.2 ⟨c, hc, hsub⟩⟩
  have hordered := (kept_mentions fun _ _ => trivial).optimizeOrder hself m
  intro sub hsub
  obtain ⟨c, hc, hrhs⟩ := mem_subqueries.1 hsub
  exact (hordered.conditions c hc).subquery sub hrhs

/-- What a new result says of its query. -/
theorem describes_of_optimize (hadvanced : m.settings.enableAdvanced = true)
    (hvalid : q.validate = .ok ()) {r : Optimized} (h : q.optimize m = .ok r) :
    r.Describes q m.schema := by
  have hscoped : q.WellScoped := (validate_eq_ok_iff q).1 hvalid
  rw [optimize_eq, if_pos hadvanced] at h
  obtain ⟨-, hr⟩ := finish_eq_ok_iff.1 h
  have hquery : r.query = (q.optimizeSubqueries m).1 := by rw [hr]
  have hrequired : r.requiredColumns = q.optimizeConditions.1.requiredColumns := by rw [hr]
  have hhints : r.indexHints = (q.optimizeOrder m).1.indexHints m.schema := by rw [hr]
  have hunnested := unnested_optimizeSubqueries m q
  have hkeys := tableKeys_optimizeOrder hscoped m
  obtain ⟨hmentioned, -⟩ := mentions_iff.1 (mentions_optimizeOrder hscoped m)
  rw [← hquery] at hunnested
  have hwithin := hunnested.references_onTablesOf hkeys.symm.subset
  constructor
  case supplied =>
    intro x hx
    rw [hrequired]
    exact (hmentioned x (hwithin hx)).1
  case hinted =>
    intro x hx usage husage hstar hcolumn
    rw [hhints]
    exact exists_hint_indexHints (hwithin hx) husage hstar hcolumn
  case left_out =>
    intro j hj hread
    have hnew : j.right.tableKey ∉ q.tableKeys := hasTable_eq_false_iff.1 hread
    obtain ⟨sub, hsub, htable⟩ := hunnested.exists_subquery hkeys.subset hj hread
    refine ⟨List.mem_map.2 ⟨sub, subqueries_optimizeOrder q m hsub, htable.symm⟩, ?_, ?_⟩
    · -- all tables with columns are mentioned, and those that are mentioned are tables of the query
      rw [hrequired, Option.eq_none_iff_forall_ne_some]
      intro columns hcolumns
      obtain ⟨x, hx, hkey⟩ := exists_reference_of_lookup hcolumns
      refine hnew ?_
      rw [hkey]
      exact (inPlace_optimizeConditions hscoped).references_known x hx
    · rw [hhints]
      refine forall_indexHints (P := fun table => Text.lower table ≠ j.right.tableKey) ?_
      exact fun x hx hkey => hnew (hkey ▸ (hmentioned x hx).2)

/-! ### Answers -/

/-- The subqueries read the same tables whatever the literals are. -/
theorem sources_mapLiterals (f : Literal → Literal) (q : Query) :
    (q.mapLiterals f).subqueries.map source = q.subqueries.map source := by
  rw [subqueries, subqueries, conditions_mapLiterals]
  induction q.conditions with
  | nil => rfl
  | cons c cs ih =>
      obtain ⟨lhs, op, rhs⟩ := c
      rw [Condition.mapAllLiterals, List.filterMap_cons, List.filterMap_cons]
      cases rhs with
      | subquery sub => exact congrArg₂ List.cons (source_mapLiterals f sub) ih
      | literal _ | list _ | range _ _ | null | daysAgo _ | column _ => exact ih

/-- Queries of the same signature read the same tables. -/
theorem tables_of_signature_eq {p : Query} {s s' : Schema} (h : q.signature s = p.signature s') :
    q.tables = p.tables ∧ q.subqueries.map source = p.subqueries.map source := by
  have hshown := shown_eq_of_signature_eq h
  rw [← tables_mapLiterals Literal.shown q, ← sources_mapLiterals Literal.shown q, hshown,
    tables_mapLiterals, sources_mapLiterals]
  exact ⟨rfl, rfl⟩

end Query

namespace Optimized.Describes

variable {q p : Query} {s : Schema} {r : Optimized}

/-- Nothing but the tables of the given query counts. -/
theorem of_tables (h : r.Describes p s) (htables : q.tables = p.tables)
    (hsources : q.subqueries.map Query.source = p.subqueries.map Query.source) :
    r.Describes q s := by
  have hread : ∀ table, q.hasTable table = p.hasTable table := fun table => by
    rw [Query.hasTable, Query.hasTable, htables]
  have hquery : r.query.onTablesOf q = r.query.onTablesOf p := by
    simp only [Query.onTablesOf, hread]
  have hkeys : q.subqueries.map (fun sub => Text.lower sub.source) =
      p.subqueries.map fun sub => Text.lower sub.source := by
    have hlower := congrArg (List.map Text.lower) hsources
    rwa [List.map_map, List.map_map] at hlower
  refine ⟨?_, ?_, ?_⟩
  · rw [hquery]
    exact h.supplied
  · rw [hquery]
    exact h.hinted
  · intro j hj hnew
    rw [hkeys]
    exact h.left_out j hj (hread _ ▸ hnew)

/-- Advice, and the mark of a kept result, leave columns and hints alone. -/
theorem advise (h : r.Describes q s) (threshold requests : Nat) (cached : Bool) :
    (Optimizer.advise threshold requests { r with cached }).Describes q s :=
  ⟨h.supplied, h.hinted, h.left_out⟩

end Optimized.Describes

namespace Optimizer

/-- Whatever the optimizer was asked for before, the columns and the hints of an answer cover its
query, but for the joins that were subqueries.  Which columns there are is taken from the schema of
the request, or from that of an earlier one of the same signature. -/
theorem answer_describes (o : Optimizer) (hempty : o.cache.entries = [])
    (hadvanced : o.settings.enableAdvanced = true) (requests : List (Query × Schema)) (q : Query)
    (s : Schema) {r : Optimized} (hr : ((o.after requests).optimize q s).1 = .ok r) :
    ∃ s', (s' = s ∨ ∃ p ∈ requests, p.2 = s' ∧ q.signature s = p.1.signature s') ∧
      r.Describes q s' := by
  have hvalid := validate_of_answer hr
  obtain ⟨n, ⟨kept, hmem, hanswer⟩ | hanswer⟩ := (o.after requests).answer_cases s hvalid
  · obtain ⟨p, hp, hpvalid, hkey, hkept⟩ := kept_after hempty requests _ hmem
    rw [settings_after] at hkept
    have hdescribes : kept.Describes p.1 p.2 := Query.describes_of_optimize hadvanced hpvalid hkept
    obtain ⟨htables, hsources⟩ := Query.tables_of_signature_eq hkey
    obtain rfl := Except.ok.inj (hanswer.symm.trans hr)
    exact ⟨p.2, .inr ⟨p, hp, rfl, hkey⟩, (hdescribes.of_tables htables hsources).advise _ _ _⟩
  · rw [hr, eq_comm, Failure.map_eq_ok_iff, settings_after] at hanswer
    obtain ⟨new, hnew, rfl⟩ := hanswer
    have hdescribes : new.Describes q s := Query.describes_of_optimize hadvanced hvalid hnew
    exact ⟨s, .inl rfl, hdescribes.advise _ _ _⟩

/-- The second answer is the kept result of the first, and what it says of the orders is right. -/
theorem answer_describes_knownOrders :
    (ofSettings {}).cache.entries = [] ∧ (ofSettings {}).settings.enableAdvanced = true ∧
      ∃ r, (((ofSettings {}).after [(knownOrders, customerSchema 100)]).optimize knownOrders
          (customerSchema 100)).1 = .ok r ∧ r.cached = true ∧
        r.requiredColumns = [("orders", ["customer_id", "id"])] ∧
        r.Describes knownOrders (customerSchema 100) := by
  have hrun : ((((ofSettings {}).after [(knownOrders, customerSchema 100)]).optimize knownOrders
      (customerSchema 100)).1.map fun r => decide (r.cached = true ∧
        r.requiredColumns = [("orders", ["customer_id", "id"])])) = .ok true := by decide +kernel
  obtain ⟨r, hr, hkept⟩ := (Failure.map_eq_ok_iff _ _ _).1 hrun
  obtain ⟨hcached, hcolumns⟩ := of_decide_eq_true hkept
  obtain ⟨s', hs', hdescribes⟩ := answer_describes (ofSettings {}) rfl rfl
    [(knownOrders, customerSchema 100)] knownOrders (customerSchema 100) hr
  have hschema : s' = customerSchema 100 := by
    rcases hs' with rfl | ⟨p, hp, rfl, -⟩
    · rfl
    · rw [List.mem_singleton.1 hp]
  exact ⟨rfl, rfl, r, hr, hcached, hcolumns, hschema ▸ hdescribes⟩

/-- Of the customers, which the result joins by their `id`, neither the column nor a hint is
listed. -/
theorem answer_leaves_out_customers :
    ∃ r, ((ofSettings {}).optimize knownOrders (customerSchema 100)).1 = .ok r ∧
      (Clause.join, ⟨"customers", "id", none⟩) ∈ r.query.references ∧
      ((customerSchema 100).column? "customers" "id").isSome = true ∧
      ¬r.requiredColumns.Has ⟨"customers", "id", none⟩ ∧
      ∀ h ∈ r.indexHints, Query.sameHint .join ⟨"customers", "id", none⟩ h = false := by
  have hrun : (((ofSettings {}).optimize knownOrders (customerSchema 100)).1.map fun r =>
      decide ((Clause.join, ⟨"customers", "id", none⟩) ∈ r.query.references ∧
        ¬r.requiredColumns.Has ⟨"customers", "id", none⟩ ∧
        ∀ h ∈ r.indexHints, Query.sameHint .join ⟨"customers", "id", none⟩ h = false)) =
          .ok true := by decide +kernel
  obtain ⟨r, hr, hfacts⟩ := (Failure.map_eq_ok_iff _ _ _).1 hrun
  obtain ⟨hmem, hcolumn, hhint⟩ := of_decide_eq_true hfacts
  exact ⟨r, hr, hmem, by decide, hcolumn, hhint⟩

end Optimizer

end AskSql
