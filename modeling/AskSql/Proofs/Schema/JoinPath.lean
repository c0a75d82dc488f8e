import AskSql.Schema.JoinPath

/-!
# Join paths lead where they should

A path leads somewhere (`Schema.Leads`) if each of its steps follows a relationship of the schema,
starts from a table that is there by then and brings in one that is not.  The search for a path
keeps such a path for each table that it has met, and every table on it counts as visited
(`Schema.Met`); so a path that is found leads to its target (`Schema.leads_joinPath?`).  Tables are
told apart by the normal forms of their names.
-/

namespace AskSql

theorem sameName_iff {a b : String} :
    sameName a b = true ↔ Name.normalize a = Name.normalize b := by
  rw [sameName, beq_iff_eq]

/-- The pointer is to this column, under some spelling of the name of its table. -/
structure Pointer.IsAt (p : Pointer) (table column : String) : Prop where
  table_eq : Name.normalize table = Name.normalize p.table
  column_eq : column = p.column

/-- The two columns are the ends of a relationship, in one direction or the other. -/
def Relationship.Connects (r : Relationship) (table column table' column' : String) : Prop :=
  r.source.IsAt table column ∧ r.target.IsAt table' column' ∨
    r.target.IsAt table column ∧ r.source.IsAt table' column'

theorem Relationship.Connects.symm {r : Relationship} {table column table' column' : String}
    (h : r.Connects table column table' column') : r.Connects table' column' table column := by
  obtain ⟨hleft, hright⟩ | ⟨hleft, hright⟩ := h
  · exact .inr ⟨hright, hleft⟩
  · exact .inl ⟨hright, hleft⟩

namespace Schema

variable {s : Schema}

/-- A name that the schema writes: of a table, or of the table of one end of a relationship. -/
def Writes (s : Schema) (name : String) : Prop :=
  (∃ t ∈ s.tables, t.name = name) ∨
    ∃ r ∈ s.relationships, r.source.table = name ∨ r.target.table = name

theorem mem_of_table? {name : String} {t : Table} (h : s.table? name = some t) : t ∈ s.tables :=
  List.mem_of_find?_eq_some h

theorem writes_table {t : Table} (h : t ∈ s.tables) : s.Writes t.name :=
  .inl ⟨t, h, rfl⟩

theorem normalize_name_of_table? {name : String} {t : Table} (h : s.table? name = some t) :
    Name.normalize t.name = Name.normalize name := by
  have hsame := List.find?_some h
  exact sameName_iff.1 hsame

theorem normalize_tableName (s : Schema) (name : String) :
    Name.normalize (s.tableName name) = Name.normalize name := by
  rw [tableName]
  cases h : s.table? name with
  | none => rfl
  | some t => exact normalize_name_of_table? h

theorem Writes.tableName {name : String} (h : s.Writes name) : s.Writes (s.tableName name) := by
  rw [Schema.tableName]
  cases htable : s.table? name with
  | none => exact h
  | some t => exact writes_table (mem_of_table? htable)

/-- A step follows a relationship of the schema. -/
structure IsHop (s : Schema) (hop : Hop) : Prop where
  connects : ∃ r ∈ s.relationships,
    r.Connects hop.fromTable hop.fromColumn hop.toTable hop.toColumn
  from_written : s.Writes hop.fromTable
  to_written : s.Writes hop.toTable

/-- The tables that are there after the steps of a path. -/
def reached (start : List String) (path : List Hop) : List String :=
  start ++ path.map fun hop => Name.normalize hop.toTable

@[simp] theorem reached_nil (start : List String) : reached start [] = start :=
  List.append_nil start

@[simp] theorem reached_concat (start : List String) (path : List Hop) (hop : Hop) :
    reached start (path ++ [hop]) = reached start path ++ [Name.normalize hop.toTable] := by
  simp [reached]

/-- Each step of the path starts from a table that is there by then and brings in one that is
not. -/
inductive Leads (s : Schema) (start : List String) : List Hop → Prop
  | nil : Leads s start []
  | concat {path : List Hop} {hop : Hop} (hpath : Leads s start path) (hhop : s.IsHop hop)
      (hfrom : Name.normalize hop.fromTable ∈ reached start path)
      (hto : Name.normalize hop.toTable ∉ reached start path) : Leads s start (path ++ [hop])

theorem Leads.isHop {start : List String} {path : List Hop} (h : s.Leads start path) :
    ∀ hop ∈ path, s.IsHop hop := by
  induction h with
  | nil => exact fun _ hmem => absurd hmem List.not_mem_nil
  | concat _ hhop _ _ ih =>
      intro hop hmem
      obtain hmem | hmem := List.mem_append.1 hmem
      · exact ih hop hmem
      · rwa [List.mem_singleton.1 hmem]

theorem reached_append (start : List String) (p q : List Hop) :
    reached start (p ++ q) = reached (reached start p) q := by
  simp [reached]

/-- Paths one after the other. -/
theorem Leads.append {start : List String} {p q : List Hop} (hp : s.Leads start p)
    (hq : s.Leads (reached start p) q) : s.Leads start (p ++ q) := by
  induction hq with
  | nil => rwa [List.append_nil]
  | concat _ hhop hfrom hto ih =>
      rw [← reached_append] at hfrom hto
      rw [← List.append_assoc]
      exact .concat ih hhop hfrom hto

/-- A step from a table follows a relationship and starts there. -/
theorem hopFrom?_spec {table : String} {r : Relationship} {hop : Hop} (hr : r ∈ s.relationships)
    (h : s.hopFrom? table r = some hop) :
    s.IsHop hop ∧ Name.normalize hop.fromTable = Name.normalize table := by
  have hsource : s.Writes r.source.table := .inr ⟨r, hr, .inl rfl⟩
  have htarget : s.Writes r.target.table := .inr ⟨r, hr, .inr rfl⟩
  have hat (p : Pointer) : p.IsAt (s.tableName p.table) p.column :=
    ⟨s.normalize_tableName p.table, rfl⟩
  unfold hopFrom? at h
  dsimp only at h
  split at h
  · next hsame =>
      obtain rfl := Option.some.inj h
      refine ⟨⟨⟨r, hr, .inl ⟨hat r.source, hat r.target⟩⟩, hsource.tableName, htarget.tableName⟩,
        ?_⟩
      exact (s.normalize_tableName _).trans (sameName_iff.1 hsame)
  · split at h
    · next hsame =>
        obtain rfl := Option.some.inj h
        refine ⟨⟨⟨r, hr, .inr ⟨hat r.target, hat r.source⟩⟩, htarget.tableName,
          hsource.tableName⟩, ?_⟩
        exact (s.normalize_tableName _).trans (sameName_iff.1 hsame)
    · cases h

theorem hopsFrom_spec {table : String} {hop : Hop} (h : hop ∈ s.hopsFrom table) :
    s.IsHop hop ∧ Name.normalize hop.fromTable = Name.normalize table := by
  obtain ⟨r, hr, hhop⟩ := List.mem_filterMap.1 h
  exact hopFrom?_spec hr hhop

/-- The tables in the queue were met on paths that lead to them, by visited tables. -/
def Met (s : Schema) (start visited : List String) (queue : List (String × List Hop)) : Prop :=
  ∀ e ∈ queue, s.Leads start e.2 ∧ Name.normalize e.1 ∈ reached start e.2 ∧
    reached start e.2 ⊆ visited

/-- The path leads to the target. -/
def LeadsTo (s : Schema) (start : List String) (target : String) (path : List Hop) : Prop :=
  s.Leads start path ∧ target ∈ reached start path

/-- What is found leads to the target, and what is left of the queue is as it should be. -/
inductive Expansion.IsSound (s : Schema) (start : List String) (target : String) :
    Expansion → Prop
  | found {path : List Hop} (h : s.LeadsTo start target path) : IsSound s start target (.found path)
  | pending {visited : List String} {queue : List (String × List Hop)}
      (h : s.Met start visited queue) : IsSound s start target (.pending visited queue)

/-- The steps from one table keep the queue as it should be, or reach the target. -/
theorem expand_spec {start visited : List String} {target : String} {path : List Hop}
    {queue : List (String × List Hop)} {hops : List Hop} (hpath : s.Leads start path)
    (hvisited : reached start path ⊆ visited) (hmet : s.Met start visited queue)
    (hhops : ∀ hop ∈ hops, s.IsHop hop ∧ Name.normalize hop.fromTable ∈ reached start path) :
    (expand target path visited queue hops).IsSound s start target := by
  induction hops generalizing visited queue with
  | nil => exact .pending hmet
  | cons hop hops ih =>
      obtain ⟨⟨hhop, hfrom⟩, hrest⟩ := List.forall_mem_cons.1 hhops
      rw [expand]
      split
      · exact ih hvisited hmet hrest
      · next hnew =>
          have hto : Name.normalize hop.toTable ∉ reached start path := fun hmem =>
            hnew (List.contains_iff_mem.2 (hvisited hmem))
          have hlonger : s.Leads start (path ++ [hop]) := .concat hpath hhop hfrom hto
          have hend : Name.normalize hop.toTable ∈ reached start (path ++ [hop]) := by
            rw [reached_concat]
            exact List.mem_append_right _ List.mem_cons_self
          by_cases htarget : Name.normalize hop.toTable = target
          · rw [if_pos (beq_iff_eq.2 htarget)]
            rw [htarget] at hend
            exact .found ⟨hlonger, hend⟩
          · have hnext : reached start path ⊆ Name.normalize hop.toTable :: visited :=
              List.subset_cons_of_subset _ hvisited
            rw [if_neg fun h => htarget (beq_iff_eq.1 h)]
            refine ih hnext ?_ hrest
            -- what was met before, and the table that this step brings in
            intro e he
            obtain he | he := List.mem_append.1 he
            · obtain ⟨hleads, hmem, hsub⟩ := hmet e he
              exact ⟨hleads, hmem, List.subset_cons_of_subset _ hsub⟩
            · obtain rfl := List.mem_singleton.1 he
              refine ⟨hlonger, hend, ?_⟩
              rw [reached_concat]
              exact List.append_subset.2
                ⟨List.subset_cons_of_subset _ hvisited, by simp⟩

/-- The search, by induction on the number of tables that it may leave. -/
theorem search_spec {start visited : List String} {target : String} {n : Nat}
    {queue : List (String × List Hop)} {found : List Hop} (hmet : s.Met start visited queue)
    (h : s.search target n visited queue = some found) : s.LeadsTo start target found := by
  -- round by round: what is pending was met on the way from the start
  induction n generalizing visited queue with
  | zero => cases h
  | succ n ih =>
      cases queue with
      | nil => cases h
      | cons e queue =>
          obtain ⟨table, path⟩ := e
          obtain ⟨⟨hpath, hmem, hsub⟩, hqueue⟩ := List.forall_mem_cons.1 hmet
          have hhops : ∀ hop ∈ s.hopsFrom table,
              s.IsHop hop ∧ Name.normalize hop.fromTable ∈ reached start path := by
            intro hop hhop
            obtain ⟨hishop, hfrom⟩ := hopsFrom_spec hhop
            rw [hfrom]
            exact ⟨hishop, hmem⟩
          have hstep : (expand target path visited queue (s.hopsFrom table)).IsSound s start
              target := expand_spec hpath hsub hqueue hhops
          rw [search] at h
          split at h
          · next hfound =>
              rw [hfound] at hstep
              cases hstep with
              | found hleads => exact Option.some.inj h ▸ hleads
          · next hpending =>
              rw [hpending] at hstep
              cases hstep with
              | pending hnext => exact ih hnext h

/-- A join path leads from the tables that are there to its target. -/
theorem leads_joinPath? {reachable : List String} {target : String} {path : List Hop}
    (h : s.joinPath? reachable target = some path) :
    s.LeadsTo (reachable.map Name.normalize) (Name.normalize target) path := by
  unfold joinPath? at h
  dsimp only at h
  split at h
  · next hthere =>
      obtain rfl := Option.some.inj h
      refine ⟨.nil, ?_⟩
      rw [reached_nil]
      exact List.contains_iff_mem.1 hthere
  · refine search_spec (fun e he => ?_) h
    obtain ⟨name, hname, rfl⟩ := List.mem_map.1 he
    refine ⟨.nil, ?_, ?_⟩
    · rw [reached_nil, normalize_tableName]
      exact List.mem_map_of_mem hname
    · rw [reached_nil]
      exact List.Subset.refl _

end Schema

end AskSql
