import AskSql.Proofs.Reshape.Mentions

/-!
# Reshaping keeps the references in scope

`Sound` gathers what a query has to satisfy so that its tables may be joined in any order: it passes
the check, its conditions behind joins mention no later table, and no table has a name of blanks.
Each way of reshaping a query keeps it.  All passes but one leave the sides of the joins as they are,
so all that counts is what the query mentions (`WellScoped.of_joinSides`); unnesting adds a join at
the end (`Sound.withJoin`).
-/

namespace AskSql

namespace Query

/-- A query whose tables may be joined in any order. -/
structure Sound (q : Query) : Prop where
  well_scoped : q.WellScoped
  on_scoped : q.OnScoped
  tables_named : ∀ j ∈ q.joins, Text.isBlankText j.table = false

theorem Sound.named {q : Query} (h : q.Sound) : ∀ t ∈ q.tables, Text.isBlankText t = false := by
  intro t ht
  obtain rfl | ht := List.mem_cons.1 ht
  · exact h.well_scoped.source_named
  · obtain ⟨j, hj, rfl⟩ := List.mem_map.1 ht
    exact h.tables_named j hj

theorem scopeAfter_eq_of_joinSides {q q' : Query} (hsource : q'.source = q.source)
    (hsides : q'.joinSides = q.joinSides) (n : Nat) : q'.scopeAfter n = q.scopeAfter n := by
  have hmap : ∀ p : Query, (p.joins.take n).map (fun j => j.right.tableKey) =
      (p.joinSides.take n).map fun s => s.2.tableKey := by
    intro p
    simp only [joinSides, ← List.map_take, List.map_map]
    rfl
  simp only [scopeAfter, hsource, hmap, hsides]

theorem tableKeys_eq_of_joinSides {q q' : Query} (hsource : q'.source = q.source)
    (hsides : q'.joinSides = q.joinSides) : q'.tableKeys = q.tableKeys := by
  have hlength : q'.joins.length = q.joins.length := by
    simpa [joinSides] using congrArg List.length hsides
  rw [← scopeAfter_length, ← scopeAfter_length, hlength,
    scopeAfter_eq_of_joinSides hsource hsides]

theorem exists_join_of_joinSides {q q' : Query} (hsides : q'.joinSides = q.joinSides) {i : Nat}
    {j : Join} (h : q'.joins[i]? = some j) :
    ∃ k, q.joins[i]? = some k ∧ k.left = j.left ∧ k.right = j.right := by
  have hside : q'.joinSides[i]? = some (j.left, j.right) := by simp [joinSides, h]
  rw [hsides] at hside
  obtain ⟨k, hk, hkj⟩ : ∃ k, q.joins[i]? = some k ∧ (k.left, k.right) = (j.left, j.right) := by
    simpa [joinSides] using hside
  exact ⟨k, hk, congrArg Prod.fst hkj, congrArg Prod.snd hkj⟩

/-- A well scoped query mentions its own tables and valid subqueries. -/
theorem WellScoped.mentions {q : Query} (h : q.WellScoped) :
    q.Mentions (fun r => r.tableKey ∈ q.tableKeys) fun sub => sub.validate = .ok () :=
  mentions_iff.2 ⟨h.references_known, h.subqueries_valid⟩

/-- A query with the same source and joins is well scoped as well, if it mentions nothing else. -/
theorem WellScoped.of_joinSides {q q' : Query} (h : q.WellScoped) (hsource : q'.source = q.source)
    (hsides : q'.joinSides = q.joinSides)
    (hmentions : q'.Mentions (fun r => r.tableKey ∈ q.tableKeys) fun sub => sub.validate = .ok ()) :
    q'.WellScoped := by
  obtain ⟨hrefs, hsubs⟩ := mentions_iff.1 hmentions
  refine ⟨hsource ▸ h.source_named, ?_, ?_, ?_, hsubs⟩
  · intro i j hj
    obtain ⟨k, hk, hleft, -⟩ := exists_join_of_joinSides hsides hj
    rw [scopeAfter_eq_of_joinSides hsource hsides, ← hleft]
    exact h.left_known i k hk
  · intro i j hj
    obtain ⟨k, hk, -, hright⟩ := exists_join_of_joinSides hsides hj
    rw [scopeAfter_eq_of_joinSides hsource hsides, ← hright]
    exact h.right_new i k hk
  · rw [tableKeys_eq_of_joinSides hsource hsides]
    exact hrefs

/-- The same holds of everything that is asked of a sound query, if the conditions behind each join
mention no other tables than before. -/
theorem Sound.of_joinSides {q q' : Query} (h : q.Sound) (hsource : q'.source = q.source)
    (hsides : q'.joinSides = q.joinSides)
    (hmentions : q'.Mentions (fun r => r.tableKey ∈ q.tableKeys) fun sub => sub.validate = .ok ())
    (hon : ∀ i j, q'.joins[i]? = some j → ∀ c ∈ j.conditions, ∀ r ∈ c.references,
      r.tableKey ∈ q.scopeAfter (i + 1)) : q'.Sound := by
  refine ⟨h.well_scoped.of_joinSides hsource hsides hmentions, ?_, ?_⟩
  · intro i j hj c hc r hr
    rw [scopeAfter_eq_of_joinSides hsource hsides]
    exact hon i j hj c hc r hr
  · intro j hj
    obtain ⟨i, hi⟩ := List.mem_iff_getElem?.1 hj
    obtain ⟨k, hk, -, hright⟩ := exists_join_of_joinSides hsides hi
    have hnamed := h.tables_named k (List.mem_of_getElem? hk)
    rwa [Join.table, hright] at hnamed

/-! ### Passes that leave the joins where they are -/

theorem Sound.completeGrouping {q : Query} (h : q.Sound) : q.completeGrouping.query.Sound :=
  h.of_joinSides rfl rfl (h.well_scoped.mentions.completeGrouping fun _ hr => hr) h.on_scoped

theorem Sound.dedupGrouping {q : Query} (h : q.Sound) : q.dedupGrouping.query.Sound :=
  h.of_joinSides rfl rfl h.well_scoped.mentions.dedupGrouping h.on_scoped

theorem joinSides_foldConstants (q : Query) :
    q.foldConstants.query.joinSides = q.joinSides := by
  simp [joinSides, joins_foldConstants, Function.comp_def]

theorem Sound.foldConstants {q : Query} (h : q.Sound) : q.foldConstants.query.Sound := by
  refine h.of_joinSides rfl (joinSides_foldConstants q) h.well_scoped.mentions.foldConstants ?_
  intro i j hj
  rw [joins_foldConstants, List.getElem?_map, Option.map_eq_some_iff] at hj
  obtain ⟨k, hk, rfl⟩ := hj
  refine Condition.forall_foldAll (h.on_scoped i k hk) ?_
  intro c d hc hd r hr
  exact hc r (references_subset_of_narrows hd hr)

theorem joinSides_pushDown (q : Query) : q.pushDown.query.joinSides = q.joinSides := by
  apply List.ext_getElem?
  intro i
  simp only [joinSides, joins_pushDown, List.getElem?_map, List.getElem?_mapIdx, Option.map_map]
  rfl

theorem Sound.pushDown {q : Query} (h : q.Sound) : q.pushDown.query.Sound := by
  refine h.of_joinSides rfl (joinSides_pushDown q) h.well_scoped.mentions.pushDown ?_
  intro i j hj c hc r hr
  obtain ⟨k, hk, -, -, hon⟩ := exists_join_pushDown hj
  obtain hc | ⟨-, htarget⟩ := hon c hc
  · exact h.on_scoped i k hk c hc r hr
  · -- the condition mentions the table of this join alone
    obtain ⟨k', hk', -, htable⟩ := pushTarget?_spec htarget
    obtain rfl : k = k' := Option.some.inj (hk.symm.trans hk')
    rw [htable r hr, scopeAfter_succ q hk]
    simp

/-! ### Subqueries turned into joins -/

theorem getElem?_append_singleton {js : List Join} {j k : Join} {i : Nat}
    (h : (js ++ [j])[i]? = some k) : js[i]? = some k ∨ i = js.length ∧ k = j := by
  by_cases hi : i < js.length
  · exact Or.inl (by rwa [List.getElem?_append_left hi] at h)
  · rw [List.getElem?_append_right (Nat.le_of_not_lt hi)] at h
    obtain ⟨hzero, hk⟩ := List.getElem?_eq_some_iff.1 h
    have hlength : i = js.length := by
      simp only [List.length_singleton] at hzero
      omega
    exact Or.inr ⟨hlength, by simpa [hlength] using hk.symm⟩

/-- The query with one more join, at the end, and other conditions in its filter. -/
def withJoin (q : Query) (j : Join) (filters : List Condition) : Query :=
  q.withClauses (q.joins ++ [j]) filters

section WithJoin

variable {q : Query} {j : Join} {filters : List Condition}

theorem tableKeys_withJoin :
    (q.withJoin j filters).tableKeys = q.tableKeys ++ [j.right.tableKey] := by
  simp [withJoin, withClauses, tableKeys, tables, Join.table, Reference.tableKey]

/-- A join is one of before, with the tables of before, or the new one behind all of them. -/
theorem withJoin_cases {i : Nat} {k : Join} (h : (q.withJoin j filters).joins[i]? = some k) :
    q.joins[i]? = some k ∧ (q.withJoin j filters).scopeAfter i = q.scopeAfter i ∨
      k = j ∧ (q.withJoin j filters).scopeAfter i = q.tableKeys := by
  have hscope : ∀ n ≤ q.joins.length, (q.withJoin j filters).scopeAfter n = q.scopeAfter n := by
    intro n hn
    simp [withJoin, withClauses, scopeAfter, List.take_append_of_le_length hn]
  obtain hk | ⟨rfl, rfl⟩ := getElem?_append_singleton h
  · have hlt : i < q.joins.length := (List.getElem?_eq_some_iff.1 hk).1
    exact Or.inl ⟨hk, hscope i (Nat.le_of_lt hlt)⟩
  · rw [hscope _ (Nat.le_refl _), scopeAfter_length]
    exact Or.inr ⟨rfl, rfl⟩

theorem WellScoped.withJoin (h : q.WellScoped) (hfilters : filters ⊆ q.filters)
    (hleft : j.left.tableKey ∈ q.tableKeys) (hnew : j.right.tableKey ∉ q.tableKeys)
    (hon : ∀ c ∈ j.conditions, c.Mentions (fun r => r.tableKey = j.right.tableKey)
      fun sub => sub.validate = .ok ()) :
    (q.withJoin j filters).WellScoped := by
  have hkept : ∀ t ∈ q.tableKeys, t ∈ (q.withJoin j filters).tableKeys := by
    intro t ht
    rw [tableKeys_withJoin]
    exact List.mem_append_left _ ht
  have hadded : j.right.tableKey ∈ (q.withJoin j filters).tableKeys := by
    rw [tableKeys_withJoin]
    simp
  have hold : q.Mentions (fun r => r.tableKey ∈ (q.withJoin j filters).tableKeys)
      fun sub => sub.validate = .ok () :=
    h.mentions.mono (fun r hr => hkept _ hr) fun _ hsub => hsub
  have hmentions : (q.withJoin j filters).Mentions
      (fun r => r.tableKey ∈ (q.withJoin j filters).tableKeys) fun sub => sub.validate = .ok () := by
    refine hold.withClauses ?_ fun c hc => hold.filters c (hfilters hc)
    rw [List.forall_mem_append, List.forall_mem_singleton]
    refine ⟨hold.joins, hkept _ hleft, hadded, ?_⟩
    exact fun c hc => (hon c hc).mono (fun r hr => hr ▸ hadded) fun _ hsub => hsub
  obtain ⟨hrefs, hsubs⟩ := mentions_iff.1 hmentions
  refine ⟨h.source_named, ?_, ?_, hrefs, hsubs⟩
  -- an earlier join has the scope that it had, and the new one comes last
  · intro i k hk
    obtain ⟨hk, hscope⟩ | ⟨rfl, hscope⟩ := withJoin_cases hk
    · rw [hscope]
      exact h.left_known i k hk
    · rwa [hscope]
  · intro i k hk
    obtain ⟨hk, hscope⟩ | ⟨rfl, hscope⟩ := withJoin_cases hk
    · rw [hscope]
      exact h.right_new i k hk
    · rwa [hscope]

/-- A join at the end that brings in a new table. -/
theorem Sound.withJoin (h : q.Sound) (hfilters : filters ⊆ q.filters)
    (hleft : j.left.tableKey ∈ q.tableKeys) (hnew : j.right.tableKey ∉ q.tableKeys)
    (hnamed : Text.isBlankText j.table = false)
    (hon : ∀ c ∈ j.conditions, c.Mentions (fun r => r.tableKey = j.right.tableKey)
      fun sub => sub.validate = .ok ()) :
    (q.withJoin j filters).Sound := by
  refine ⟨h.well_scoped.withJoin hfilters hleft hnew hon, ?_, ?_⟩
  · intro i k hk c hc r hr
    rw [scopeAfter_succ _ hk]
    obtain ⟨hk, hscope⟩ | ⟨rfl, -⟩ := withJoin_cases hk
    · rw [hscope, ← scopeAfter_succ q hk]
      exact h.on_scoped i k hk c hc r hr
    · rw [(hon c hc).references r hr]
      simp
  · intro k hk
    obtain hk | hk := List.mem_append.1 hk
    · exact h.tables_named k hk
    · obtain rfl := List.mem_singleton.1 hk
      exact hnamed

end WithJoin

/-- A condition of a well scoped query that amounts to a join: the join starts from a table that is
there and brings in one that is not, and its conditions mention this one alone. -/
theorem WellScoped.unnested? {q : Query} {s : Schema} {c : Condition} {j : Join}
    (h : q.WellScoped) (hc : c ∈ q.filters) (hj : c.unnested? s q.tables = some j) :
    j.left.tableKey ∈ q.tableKeys ∧ j.right.tableKey ∉ q.tableKeys ∧
      Text.isBlankText j.table = false ∧
      ∀ d ∈ j.conditions, d.Mentions (fun r => r.tableKey = j.right.tableKey)
        fun sub => sub.validate = .ok () := by
  obtain ⟨outer, key, sub, rfl, hplain, hkey, hnew, rfl⟩ := Condition.unnested?_eq_some hj
  have htable : key.tableKey = Text.lower sub.source := (selectedKey?_spec hkey).2.1
  have hmentions := h.mentions.filters _ hc
  have hsub : sub.WellScoped := (validate_eq_ok_iff sub).1 (hmentions.subquery sub rfl)
  refine ⟨?_, ?_, ?_, ?_⟩
  · exact hmentions.references outer (by simp [Condition.references, Operand.references])
  · change key.tableKey ∉ _
    rw [htable]
    exact hnew
  · rw [← hsub.source_named]
    exact Text.isBlankText_eq_of_lower_eq htable
  -- the subquery has a single table, so its filters read no other
  · have hkeys : sub.tableKeys = [key.tableKey] := by
      simp [tableKeys, tables, joins_of_isPlainSelection hplain, htable]
    intro d hd
    refine (hsub.mentions.filters d hd).mono ?_ fun _ hvalid => hvalid
    intro r hr
    rw [hkeys, List.mem_singleton] at hr
    exact hr

/-- Turning one condition into a join keeps the query sound. -/
theorem Sound.unnestCondition {q : Query} {s : Schema} {kept rest : List Condition}
    {c : Condition} {j : Join} (h : q.Sound) (hfilters : q.filters = kept ++ c :: rest)
    (hj : c.unnested? s q.tables = some j) :
    (q.withJoin j (kept ++ rest)).Sound := by
  have hc : c ∈ q.filters := by simp [hfilters]
  obtain ⟨hleft, hnew, hnamed, hon⟩ := h.well_scoped.unnested? hc hj
  have hsublist : (kept ++ rest).Sublist q.filters := by
    rw [hfilters]
    exact (List.sublist_cons_self c rest).append_left kept
  exact h.withJoin hsublist.subset hleft hnew hnamed hon

theorem Sound.unnest {q : Query} (h : q.Sound) (s : Schema) : (q.unnest s).query.Sound :=
  unnest_induction s h fun _ _ _ _ _ hacc hj => hacc.unnestCondition rfl hj

end Query

end AskSql
