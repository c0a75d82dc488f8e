import AskSql.Proofs.Schema.Lookup

/-!
# Declared relationships

A schema that is put together table by table has its relationships from the columns that refer to
other tables.  A relationship is known by the normal forms of the names at its two ends
(`Relationship.key`), and adding one keeps the keys distinct; so the relationships of
`Schema.ofTables` are those that some table ever declared, once for each key.

* Every reference of a table that is there has exactly one relationship, which is many to one.
* No relationship is ever taken back.  A table that takes the place of an earlier one leaves the
  relationships of the earlier one as they are, so the first column of a relationship is sure to
  refer to another table only where each column that ever did so still does
  (`Schema.relationships_follow_tables`).  It need not even be there
  (`Schema.relationships_ofTables_stale`).
-/

namespace AskSql

/-- What a pointer is told apart by. -/
def Pointer.key (p : Pointer) : String × String :=
  (Name.normalize p.table, Name.normalize p.column)

/-- What a relationship is told apart by. -/
def Relationship.key (r : Relationship) : (String × String) × (String × String) :=
  (r.source.key, r.target.key)

theorem Pointer.same_iff {p q : Pointer} : p.same q = true ↔ p.key = q.key := by
  rw [same, Bool.and_eq_true, sameName_iff, sameName_iff, key, key, Prod.mk.injEq]

namespace Schema

theorem sameEnds_iff {r u : Relationship} : sameEnds r u = true ↔ r.key = u.key := by
  rw [sameEnds, Bool.and_eq_true, Pointer.same_iff, Pointer.same_iff]
  show _ ↔ (r.source.key, r.target.key) = (u.source.key, u.target.key)
  rw [Prod.mk.injEq (r.source.key)]

/-! ### Adding relationships -/

section Adding

variable {rs ds : List Relationship} {r u : Relationship}

theorem any_sameEnds_iff :
    (rs.any fun u => sameEnds u r) = true ↔ r.key ∈ rs.map Relationship.key := by
  rw [List.any_eq_true, List.mem_map]
  exact exists_congr fun u => and_congr_right fun _ => sameEnds_iff

theorem mem_insertRelationship (h : u ∈ insertRelationship rs r) : u ∈ rs ∨ u = r := by
  unfold insertRelationship at h
  split at h
  · exact .inl h
  · rcases List.mem_append.1 h with h | h
    · exact .inl h
    · exact .inr (List.mem_singleton.1 h)

/-- The keys afterwards are those before and the new one. -/
theorem mem_keys_insertRelationship {k : (String × String) × (String × String)} :
    k ∈ (insertRelationship rs r).map Relationship.key ↔
      k ∈ rs.map Relationship.key ∨ k = r.key := by
  unfold insertRelationship
  split
  · next hthere =>
      -- nothing is added, as the key is there already
      constructor
      · exact .inl
      · rintro (hk | rfl)
        · exact hk
        · exact any_sameEnds_iff.1 hthere
  · rw [List.map_append, List.mem_append, List.map_singleton, List.mem_singleton]

theorem nodup_keys_insertRelationship (h : (rs.map Relationship.key).Nodup) :
    ((insertRelationship rs r).map Relationship.key).Nodup := by
  unfold insertRelationship
  split
  · exact h
  · next hnew =>
      rw [List.map_append, List.map_singleton, ← List.concat_eq_append]
      exact List.Nodup.concat (fun hmem => hnew (any_sameEnds_iff.2 hmem)) h

theorem mem_foldl_insertRelationship (h : u ∈ ds.foldl insertRelationship rs) :
    u ∈ rs ∨ u ∈ ds := by
  induction ds generalizing rs with
  | nil => exact .inl h
  | cons d ds ih =>
      rcases ih h with h | h
      · rcases mem_insertRelationship h with h | rfl
        · exact .inl h
        · exact .inr List.mem_cons_self
      · exact .inr (List.mem_cons_of_mem d h)

theorem mem_keys_foldl_insertRelationship {k : (String × String) × (String × String)} :
    k ∈ (ds.foldl insertRelationship rs).map Relationship.key ↔
      k ∈ rs.map Relationship.key ∨ k ∈ ds.map Relationship.key := by
  induction ds generalizing rs with
  | nil => simp
  | cons d ds ih =>
      rw [List.foldl_cons, ih, mem_keys_insertRelationship, List.map_cons, List.mem_cons, or_assoc]

theorem nodup_keys_foldl_insertRelationship (h : (rs.map Relationship.key).Nodup) :
    ((ds.foldl insertRelationship rs).map Relationship.key).Nodup := by
  induction ds generalizing rs with
  | nil => exact h
  | cons d ds ih => exact ih (nodup_keys_insertRelationship h)

/-- Where keys are distinct, what has the key of a member is this member. -/
theorem filter_sameEnds (h : (rs.map Relationship.key).Nodup) (hu : u ∈ rs) (hkey : u.key = r.key) :
    (rs.filter fun v => sameEnds v r) = [u] := by
  have hnodup : (rs.filter fun v => sameEnds v r).Nodup := (List.Nodup.of_map _ h).filter _
  refine List.perm_singleton.1 ((List.perm_ext_iff_of_nodup hnodup (List.nodup_singleton u)).2 ?_)
  intro v
  rw [List.mem_filter, sameEnds_iff, List.mem_singleton]
  constructor
  · rintro ⟨hv, hsame⟩
    exact List.inj_on_of_nodup_map h hv hu (hsame.trans hkey.symm)
  · rintro rfl
    exact ⟨hu, hkey⟩

end Adding

/-! ### Adding tables -/

/-- The schema of some tables that are added one after the other. -/
def ofTables (tables : List Table) : Schema :=
  tables.foldl addTable {}

/-- The pointer is to a column that refers to another one, in a table that is there. -/
def Refers (s : Schema) (p : Pointer) : Prop :=
  ∃ t ∈ s.tables, ∃ c ∈ t.columns, c.references.isSome = true ∧
    Pointer.same ⟨t.name, c.name⟩ p = true

theorem Refers.congr {s : Schema} {p q : Pointer} (h : s.Refers p) (heq : p.key = q.key) :
    s.Refers q := by
  obtain ⟨t, ht, c, hc, hrefers, hsame⟩ := h
  exact ⟨t, ht, c, hc, hrefers, Pointer.same_iff.2 ((Pointer.same_iff.1 hsame).trans heq)⟩

theorem mem_declaredRelationships {t : Table} {r : Relationship} :
    r ∈ declaredRelationships t ↔
      ∃ c ∈ t.columns, ∃ target, c.references = some target ∧
        r = { source := ⟨t.name, c.name⟩, target, cardinality := .manyToOne } := by
  simp only [declaredRelationships, List.mem_filterMap, Option.map_eq_some_iff,
    eq_comm (a := r)]

/-- A table that is there was added at some time. -/
theorem mem_of_mem_tables_foldl_addTable {s : Schema} {tables : List Table} {t : Table}
    (h : t ∈ (tables.foldl addTable s).tables) : t ∈ s.tables ∨ t ∈ tables := by
  induction tables generalizing s with
  | nil => exact .inl h
  | cons new tables ih =>
      rcases ih h with h | h
      · rcases List.mem_append.1 h with h | h
        · exact .inl (List.mem_of_mem_filter h)
        · rw [List.mem_singleton.1 h]
          exact .inr List.mem_cons_self
      · exact .inr (List.mem_cons_of_mem new h)

/-- The relationships do not depend on which tables take the place of which. -/
theorem relationships_foldl_addTable (s : Schema) (tables : List Table) :
    (tables.foldl addTable s).relationships =
      (tables.flatMap declaredRelationships).foldl insertRelationship s.relationships := by
  induction tables generalizing s with
  | nil => rfl
  | cons t tables ih =>
      rw [List.foldl_cons, ih, List.flatMap_cons, List.foldl_append]
      rfl

variable {tables : List Table}

theorem mem_of_mem_tables_ofTables {t : Table} (h : t ∈ (ofTables tables).tables) :
    t ∈ tables := by
  rcases mem_of_mem_tables_foldl_addTable h with h | h
  · cases h
  · exact h

/-- A relationship was declared by some table. -/
theorem declared_of_mem_relationships {r : Relationship}
    (h : r ∈ (ofTables tables).relationships) : ∃ t ∈ tables, r ∈ declaredRelationships t := by
  rw [ofTables, relationships_foldl_addTable] at h
  rcases mem_foldl_insertRelationship h with h | h
  · cases h
  · exact List.mem_flatMap.1 h

/-- What some table declared is there, maybe under another spelling. -/
theorem exists_relationship_of_declared {t : Table} {d : Relationship} (ht : t ∈ tables)
    (hd : d ∈ declaredRelationships t) :
    ∃ r ∈ (ofTables tables).relationships, r.key = d.key := by
  have hkey : d.key ∈ (ofTables tables).relationships.map Relationship.key := by
    rw [ofTables, relationships_foldl_addTable, mem_keys_foldl_insertRelationship]
    exact .inr (List.mem_map_of_mem (List.mem_flatMap.2 ⟨t, ht, hd⟩))
  exact List.mem_map.1 hkey

theorem nodup_keys_ofTables (tables : List Table) :
    ((ofTables tables).relationships.map Relationship.key).Nodup := by
  rw [ofTables, relationships_foldl_addTable]
  exact nodup_keys_foldl_insertRelationship List.nodup_nil

/-- After any tables were added, some maybe in place of others: each reference of a table that is
there has one relationship, which is many to one.  Each relationship starts from a column that
refers to another table if and only if no column that was declared to do so has ceased to. -/
theorem relationships_follow_tables (tables : List Table) :
    (∀ t ∈ (ofTables tables).tables, ∀ c ∈ t.columns, ∀ target, c.references = some target →
      ((ofTables tables).relationships.filter fun r =>
        r.source.same ⟨t.name, c.name⟩ && r.target.same target).map Relationship.cardinality =
          [.manyToOne]) ∧
      ((∀ r ∈ (ofTables tables).relationships, (ofTables tables).Refers r.source) ↔
        ∀ t ∈ tables, ∀ c ∈ t.columns, c.references.isSome = true →
          (ofTables tables).Refers ⟨t.name, c.name⟩) := by
  constructor
  · intro t ht c hc target htarget
    let d : Relationship := { source := ⟨t.name, c.name⟩, target, cardinality := .manyToOne }
    have hd : d ∈ declaredRelationships t :=
      mem_declaredRelationships.2 ⟨c, hc, target, htarget, rfl⟩
    obtain ⟨r, hr, hkey⟩ :=
      exists_relationship_of_declared (mem_of_mem_tables_ofTables ht) hd
    have hone : ((ofTables tables).relationships.filter fun v => sameEnds v d) = [r] :=
      filter_sameEnds (nodup_keys_ofTables tables) hr hkey
    -- the one that is there was declared as well, maybe by another table
    obtain ⟨t', -, hr'⟩ := declared_of_mem_relationships hr
    obtain ⟨c', -, target', -, rfl⟩ := mem_declaredRelationships.1 hr'
    exact congrArg (List.map Relationship.cardinality) hone
  · constructor
    · intro hall t ht c hc hrefers
      obtain ⟨target, htarget⟩ := Option.isSome_iff_exists.1 hrefers
      obtain ⟨r, hr, hkey⟩ := exists_relationship_of_declared ht
        (mem_declaredRelationships.2 ⟨c, hc, target, htarget, rfl⟩)
      exact (hall r hr).congr (Prod.mk.inj hkey).1
    · intro hall r hr
      obtain ⟨t, ht, hdeclared⟩ := declared_of_mem_relationships hr
      obtain ⟨c, hc, target, htarget, rfl⟩ := mem_declaredRelationships.1 hdeclared
      exact hall t ht c hc (Option.isSome_iff_exists.2 ⟨target, htarget⟩)

/-- Orders that refer to their customers, and once more without a customer. -/
def redefinedOrders : List Table :=
  [{ name := "customers", columns := [.asPrimaryKey { name := "id", type := .integer }] },
    { name := "orders", columns := [{ name := "id", type := .integer },
      { name := "customer_id", type := .integer, references := some ⟨"customers", "id"⟩ }] },
    { name := "Orders", columns := [{ name := "id", type := .integer }] }]

/-- The relationship of the first orders stays, though no table has its column any more. -/
theorem relationships_ofTables_stale :
    ∃ r ∈ (ofTables redefinedOrders).relationships,
      ¬ (ofTables redefinedOrders).Refers r.source ∧
        (ofTables redefinedOrders).column? r.source.table r.source.column = none := by
  refine ⟨⟨⟨"orders", "customer_id"⟩, ⟨"customers", "id"⟩, .manyToOne⟩, by decide, ?_, by decide⟩
  rintro ⟨t, ht, c, hc, hrefers, -⟩
  have hnone : ∀ t ∈ (ofTables redefinedOrders).tables, ∀ c ∈ t.columns, c.references = none := by
    decide
  rw [hnone t ht c hc] at hrefers
  cases hrefers

end Schema

end AskSql
