import AskSql.Proofs.Query.Mentions
import AskSql.Proofs.Reshape.Folding
import AskSql.Reshape.Pushdown
import AskSql.Reshape.Unnesting

/-!
# What a reshaped query mentions

Reshaping a query moves references and subqueries about, drops some and writes others once more
without their label.  It makes up none, so where a query mentions only what is `P` and `S`
(`Query.Mentions`) the reshaped one does too.  The one pass that looks into subqueries is unnesting:
what a subquery mentions has to be `P` and `S` there (`Mentions.unnest`).
-/

namespace AskSql

/-- A condition that reads one table alone mentions no other. -/
theorem Condition.tableKey_of_singleTable? {c : Condition} {t : String}
    (h : c.singleTable? = some t) : ∀ r ∈ c.references, r.tableKey = t := by
  intro r hr
  unfold singleTable? at h
  split at h
  · cases h
  · split at h
    · next t' htables =>
        have hmem : r.tableKey ∈ c.tables := mem_tables.2 ⟨r, hr, rfl⟩
        rw [htables, List.mem_singleton] at hmem
        exact hmem.trans (Option.some.inj h)
    · cases h

namespace Query

variable {P : Reference → Prop} {S : Query → Prop}

/-- The query with other joins and another filter. -/
def withClauses (q : Query) (joins : List Join) (filters : List Condition) : Query :=
  { q with joins, filters }

theorem withClauses_self (q : Query) : q.withClauses q.joins q.filters = q := by
  cases q; rfl

theorem Mentions.withClauses {q : Query} (h : q.Mentions P S) {joins : List Join}
    {filters : List Condition}
    (hjoins : ∀ j ∈ joins, P j.left ∧ P j.right ∧ ∀ c ∈ j.conditions, c.Mentions P S)
    (hfilters : ∀ c ∈ filters, c.Mentions P S) : (q.withClauses joins filters).Mentions P S where
  items := h.items
  joins := hjoins
  filters := hfilters
  groupBy := h.groupBy
  having := h.having
  orderBy := h.orderBy

/-! ### Groupings -/

theorem mem_insertItems {items more : List Item} {i : Item} :
    i ∈ insertItems items more ↔ i ∈ items ∨ i ∈ more := by
  have hsplit := List.takeWhile_append_dropWhile (p := fun i : Item => !i.isAggregate) (l := items)
  have hitems : i ∈ items ↔ i ∈ items.takeWhile (fun i => !i.isAggregate) ∨
      i ∈ items.dropWhile (fun i => !i.isAggregate) := by
    rw [← List.mem_append, hsplit]
  simp only [insertItems, List.mem_append, hitems]
  constructor
  · rintro ((h | h) | h)
    · exact Or.inl (Or.inl h)
    · exact Or.inr h
    · exact Or.inl (Or.inr h)
  · rintro ((h | h) | h)
    · exact Or.inl (Or.inl h)
    · exact Or.inr h
    · exact Or.inl (Or.inr h)

theorem mem_plainColumns {q : Query} {r : Reference} : r ∈ q.plainColumns ↔ .column r ∈ q.items := by
  simp only [plainColumns, List.mem_filterMap]
  constructor
  · rintro ⟨i, hi, hr⟩
    cases i with
    | column c =>
        obtain rfl : c = r := by simpa [Item.column?] using hr
        exact hi
    | aggregate a => simp [Item.column?] at hr
  · intro h
    exact ⟨_, h, rfl⟩

/-- Every key of the completed grouping is a key or a plain column, without its label. -/
theorem Mentions.completedKeys {q : Query} (h : q.Mentions P S)
    (hP : ∀ r, P r → P r.unlabelled) : ∀ r ∈ q.completedKeys, P r := by
  intro r hr
  simp only [Query.completedKeys, ungrouped, List.mem_append] at hr
  obtain hr | hr := hr
  · exact h.groupBy r hr
  · split at hr
    · simp only [List.mem_map, List.mem_filter] at hr
      obtain ⟨c, ⟨hc, -⟩, rfl⟩ := hr
      exact hP c (h.items (.column c) (mem_plainColumns.1 hc) c (by simp [Item.references]))
    · cases hr

theorem Mentions.completeGrouping {q : Query} (h : q.Mentions P S)
    (hP : ∀ r, P r → P r.unlabelled) : q.completeGrouping.query.Mentions P S where
  items := by
    intro i hi r hr
    obtain hi | hi := mem_insertItems.1 hi
    · exact h.items i hi r hr
    · -- a key that is selected now, without its label
      simp only [unselectedKeys, List.map_map, List.mem_map, List.mem_filter] at hi
      obtain ⟨key, ⟨hkey, -⟩, rfl⟩ := hi
      obtain rfl : r = key.unlabelled := by simpa [Item.references] using hr
      exact hP key (h.completedKeys hP key hkey)
  joins := h.joins
  filters := h.filters
  groupBy := h.completedKeys hP
  having := h.having
  orderBy := h.orderBy

theorem sublist_foldl_addKey (keys more : List Reference) :
    (more.foldl addKey keys).Sublist (keys ++ more) :=
  sublist_foldl_addDistinct (fun new old : Reference => old.sameColumn new) keys more

theorem Mentions.dedupGrouping {q : Query} (h : q.Mentions P S) :
    q.dedupGrouping.query.Mentions P S where
  items := h.items
  joins := h.joins
  filters := h.filters
  groupBy := fun r hr => h.groupBy r ((sublist_foldl_addKey [] q.groupBy).subset hr)
  having := h.having
  orderBy := h.orderBy

/-! ### Folded conditions -/

/-- The comparison that takes the place of a list or a range mentions nothing else. -/
theorem references_subset_of_narrows {c d : Condition} (h : c.Narrows d) :
    d.references ⊆ c.references := by
  cases h <;> exact fun _ hr => Condition.mem_references_of_lhs hr

theorem mentions_of_narrows {c d : Condition} (h : c.Mentions P S) (hd : c.Narrows d) :
    d.Mentions P S := by
  refine ⟨fun r hr => h.references r (references_subset_of_narrows hd hr), ?_⟩
  cases hd <;> exact fun _ => nofun

theorem mentions_foldAll {cs : List Condition} (h : ∀ c ∈ cs, c.Mentions P S) :
    ∀ c ∈ (Condition.foldAll cs).1, c.Mentions P S :=
  Condition.forall_foldAll h fun _ _ hc hd => mentions_of_narrows hc hd

theorem Mentions.foldConstants {q : Query} (h : q.Mentions P S) :
    q.foldConstants.query.Mentions P S where
  items := h.items
  joins := by
    rw [joins_foldConstants, List.forall_mem_map]
    intro j hj
    obtain ⟨hleft, hright, hon⟩ := h.joins j hj
    exact ⟨hleft, hright, mentions_foldAll hon⟩
  filters := mentions_foldAll h.filters
  groupBy := h.groupBy
  having := mentions_foldAll h.having
  orderBy := h.orderBy

/-! ### Conditions pushed into joins -/

/-- A condition is pushed into an inner join that brings in the one table that it mentions. -/
theorem pushTarget?_spec {q : Query} {c : Condition} {i : Nat} (h : q.pushTarget? c = some i) :
    ∃ j, q.joins[i]? = some j ∧ j.kind = .inner ∧
      ∀ r ∈ c.references, r.tableKey = j.right.tableKey := by
  unfold pushTarget? at h
  split at h
  · cases h
  · obtain ⟨t, ht, hfind⟩ := Option.bind_eq_some_iff.1 h
    have hadmits := List.of_findIdx?_eq_some hfind
    cases hj : q.joins[i]? with
    | none => simp [hj] at hadmits
    | some j =>
        simp only [hj, Join.admits, Bool.and_eq_true, beq_iff_eq] at hadmits
        refine ⟨j, rfl, hadmits.1, ?_⟩
        intro r hr
        have hmem : r.tableKey = t := c.tableKey_of_singleTable? ht r hr
        have hfold : Text.lower j.table = Text.lower t := Text.sameFold_iff.1 hadmits.2
        rw [← hmem, Reference.tableKey, Text.lower_lower] at hfold
        exact hfold.symm

theorem joins_pushDown (q : Query) :
    q.pushDown.query.joins = q.joins.mapIdx fun i j =>
      { j with
        conditions := j.conditions ++ q.filters.filter fun c => q.pushTarget? c == some i } := rfl

/-- The conditions behind a join once the filter has been pushed down. -/
theorem exists_join_pushDown {q : Query} {i : Nat} {j : Join}
    (h : q.pushDown.query.joins[i]? = some j) :
    ∃ k, q.joins[i]? = some k ∧ j.left = k.left ∧ j.right = k.right ∧
      ∀ c ∈ j.conditions, c ∈ k.conditions ∨ c ∈ q.filters ∧ q.pushTarget? c = some i := by
  rw [joins_pushDown, List.getElem?_mapIdx, Option.map_eq_some_iff] at h
  obtain ⟨k, hk, rfl⟩ := h
  refine ⟨k, hk, rfl, rfl, ?_⟩
  intro c hc
  simpa using hc

theorem Mentions.pushDown {q : Query} (h : q.Mentions P S) : q.pushDown.query.Mentions P S where
  items := h.items
  joins := by
    intro j hj
    obtain ⟨i, hi⟩ := List.mem_iff_getElem?.1 hj
    obtain ⟨k, hk, hleft, hright, hon⟩ := exists_join_pushDown hi
    obtain ⟨hkleft, hkright, hkon⟩ := h.joins k (List.mem_of_getElem? hk)
    refine ⟨hleft ▸ hkleft, hright ▸ hkright, ?_⟩
    intro c hc
    obtain hc | ⟨hc, -⟩ := hon c hc
    · exact hkon c hc
    · exact h.filters c hc
  filters := fun c hc => h.filters c (List.mem_filter.1 hc).1
  groupBy := h.groupBy
  having := h.having
  orderBy := h.orderBy

/-! ### Subqueries turned into joins -/

/-- The key that a plain selection selects is the primary key of the table that it reads. -/
theorem selectedKey?_spec {s : Schema} {q : Query} {key : Reference}
    (h : q.selectedKey? s = some key) :
    key ∈ q.plainColumns ∧ key.tableKey = Text.lower q.source ∧
      ∃ t primary, s.table? q.source = some t ∧ t.primaryKey? = some primary ∧
        Text.sameFold key.column primary.name = true := by
  unfold selectedKey? at h
  obtain ⟨key', hkey, h⟩ := Option.bind_eq_some_iff.1 h
  obtain ⟨t, ht, h⟩ := Option.bind_eq_some_iff.1 h
  obtain ⟨primary, hprimary, h⟩ := Option.bind_eq_some_iff.1 h
  split at h
  · next hsame =>
      simp only [Bool.and_eq_true] at hsame
      obtain rfl : key' = key := Option.some.inj h
      exact ⟨List.mem_of_mem_head? hkey, Text.sameFold_iff.1 hsame.2, t, primary, ht, hprimary,
        hsame.1.2⟩
  · cases h

/-- A condition that amounts to a join asks for a key, and the join carries on its two sides and the
filter of the subquery. -/
theorem Condition.unnested?_eq_some {s : Schema} {tables : List String} {c : Condition} {j : Join}
    (h : c.unnested? s tables = some j) :
    ∃ outer key sub, c = ⟨.column outer, .isIn, .subquery sub⟩ ∧ sub.isPlainSelection = true ∧
      sub.selectedKey? s = some key ∧ Text.lower sub.source ∉ tables.map Text.lower ∧
      j = { left := outer.unlabelled, right := key.unlabelled, conditions := sub.filters } := by
  obtain ⟨lhs, op, rhs⟩ := c
  unfold Condition.unnested? at h
  dsimp only at h
  split at h
  · next outer sub =>
      split at h
      · next hplain =>
          simp only [Bool.and_eq_true, Bool.not_eq_true', List.any_eq_false] at hplain
          obtain ⟨hplain, hnew⟩ := hplain
          obtain ⟨key, hkey, rfl⟩ := Option.map_eq_some_iff.1 h
          refine ⟨outer, key, sub, rfl, hplain, hkey, ?_, rfl⟩
          simp only [List.mem_map, not_exists, not_and]
          intro t ht hfold
          exact hnew t ht (Text.sameFold_iff.2 hfold)
      · cases h
  · cases h

theorem joins_of_isPlainSelection {q : Query} (h : q.isPlainSelection = true) : q.joins = [] := by
  simp only [isPlainSelection, Bool.and_eq_true, List.isEmpty_iff] at h
  exact h.1.1.1.1.1

/-- One condition becomes a join behind the others, or all stays as it is. -/
theorem unnestStep_cases (s : Schema) (source : String) (joins : List Join)
    (kept : List Condition) (tables : List String) (c : Condition) :
    (∃ j, c.unnested? s (source :: joins.map Join.table) = some j ∧
        ∃ tables', unnestStep s source (joins, kept, tables) c = (joins ++ [j], kept, tables')) ∨
      unnestStep s source (joins, kept, tables) c = (joins, kept ++ [c], tables) := by
  simp only [unnestStep]
  split
  · next j sub hj hsub => exact Or.inl ⟨j, hj, _, rfl⟩
  · exact Or.inr rfl

/-- What holds of the query at each step of unnesting holds of the unnested query.  The conditions
that are still to be looked at stand behind those that stay. -/
theorem unnest_induction {R : Query → Prop} {q : Query} (s : Schema) (h : R q)
    (hstep : ∀ (joins : List Join) (kept rest : List Condition) (c : Condition) (j : Join),
      R (q.withClauses joins (kept ++ c :: rest)) →
        c.unnested? s (q.source :: joins.map Join.table) = some j →
          R (q.withClauses (joins ++ [j]) (kept ++ rest))) : R (q.unnest s).query := by
  -- along the filters, with `R` of what is joined and kept so far as the invariant
  have hrun : ∀ (rest kept : List Condition) (joins : List Join) (tables : List String),
      R (q.withClauses joins (kept ++ rest)) →
        R (q.withClauses (rest.foldl (unnestStep s q.source) (joins, kept, tables)).1
          (rest.foldl (unnestStep s q.source) (joins, kept, tables)).2.1) := by
    intro rest
    induction rest with
    | nil =>
        intro kept joins tables hacc
        simpa using hacc
    | cons c rest ih =>
        intro kept joins tables hacc
        rw [List.foldl_cons]
        obtain ⟨j, hj, tables', hnext⟩ | hnext :=
          unnestStep_cases s q.source joins kept tables c
        · rw [hnext]
          exact ih kept _ _ (hstep joins kept rest c j hacc hj)
        · rw [hnext]
          exact ih _ _ _ (by simpa using hacc)
  exact hrun q.filters [] q.joins [] (by rwa [List.nil_append, withClauses_self])

/-- Unnesting looks into subqueries, so these have to mention nothing else either. -/
theorem Mentions.unnest {q : Query} (h : q.Mentions P S) (hP : ∀ r, P r → P r.unlabelled)
    (hS : ∀ sub, S sub → sub.Mentions P S) (s : Schema) : (q.unnest s).query.Mentions P S := by
  refine unnest_induction s h ?_
  intro joins kept rest c j hacc hj
  obtain ⟨outer, key, sub, rfl, -, hkey, -, rfl⟩ := Condition.unnested?_eq_some hj
  have hold : ∀ c ∈ kept ++ _ :: rest, c.Mentions P S := hacc.filters
  rw [List.forall_mem_append, List.forall_mem_cons] at hold
  obtain ⟨hkept, hc, hrest⟩ := hold
  have hsub : sub.Mentions P S := hS sub (hc.subquery sub rfl)
  have houter : P outer := hc.references outer (by simp [Condition.references, Operand.references])
  have hselected : P key :=
    hsub.items _ (mem_plainColumns.1 (selectedKey?_spec hkey).1) key (by simp [Item.references])
  have hjoins : ∀ j ∈ joins, P j.left ∧ P j.right ∧ ∀ c ∈ j.conditions, c.Mentions P S :=
    hacc.joins
  refine Mentions.withClauses (q := q) h ?_ ?_
  · rw [List.forall_mem_append, List.forall_mem_singleton]
    exact ⟨hjoins, hP outer houter, hP key hselected, hsub.filters⟩
  · rw [List.forall_mem_append]
    exact ⟨hkept, hrest⟩

end Query

end AskSql
