import AskSql.Compose.JoinTree
import AskSql.Proofs.Query.Mentions
import AskSql.Proofs.Schema.Lookup
import Mathlib.Data.List.Perm.Subperm

/-!
# Trees of joins

A join tree grows by join paths (`JoinTree.Grown`): each hop follows a relationship of the schema,
starts from a table that is there and brings in another one.  Such hops span their tables: a set of
tables that has one of them, and has either both ends of each hop or none, has all of them.  So they
can be turned round for a query that starts from any table of the tree, and each of the turned hops
starts from a table that is there and brings in one that is not (`JoinTree.Grown.joinsFrom`).

`JoinTree.Grounded` says of a reference what makes it safe to use: its table is in the tree, the name
of the table is written in the schema, and the column is one that the schema has.
-/

namespace AskSql

/-- The columns of the join are the ends of a relationship of the schema. -/
def Join.Follows (s : Schema) (j : Join) : Prop :=
  ∃ r ∈ s.relationships, r.Connects j.left.table j.left.column j.right.table j.right.column

theorem Join.Follows.flipped {s : Schema} {j : Join} (h : j.Follows s) : j.flipped.Follows s := by
  obtain ⟨r, hr, hends⟩ := h
  exact ⟨r, hr, hends.symm⟩

/-- A query is drawn from a schema: each reference outside of its joins stands for all columns of a
table or for one that the schema has, each join follows a relationship of the schema, and there are
no queries inside of it. -/
structure Query.DrawnFrom (s : Schema) (q : Query) : Prop where
  items : ∀ i ∈ q.items, ∀ r ∈ i.references, s.Resolves r
  joins : ∀ j ∈ q.joins, j.Follows s ∧ j.conditions = []
  filters : ∀ c ∈ q.filters, c.Mentions s.Resolves fun _ => False
  groupBy : ∀ r ∈ q.groupBy, s.Resolves r
  having_nil : q.having = []
  orderBy : ∀ k ∈ q.orderBy, ∀ r ∈ k.item.references, s.Resolves r

section Picking

variable {α : Type} {accepts : α → Bool} {xs ys : List α} {y : α}

theorem accepts_of_pick? (h : pick? accepts xs = some (y, ys)) : accepts y = true := by
  induction xs generalizing ys with
  | nil => cases h
  | cons x xs ih =>
      rw [pick?] at h
      split at h
      · next haccepts =>
          obtain ⟨rfl, -⟩ := Prod.mk.inj (Option.some.inj h)
          exact haccepts
      · obtain ⟨⟨z, zs⟩, hz, heq⟩ := Option.map_eq_some_iff.1 h
        obtain ⟨rfl, -⟩ := Prod.mk.inj heq
        exact ih hz

theorem accepts_eq_false_of_pick? (h : pick? accepts xs = none) : ∀ x ∈ xs, accepts x = false := by
  induction xs with
  | nil => exact fun x hx => absurd hx List.not_mem_nil
  | cons x xs ih =>
      rw [pick?] at h
      split at h
      · cases h
      · next hrefused =>
          exact List.forall_mem_cons.2
            ⟨Bool.eq_false_iff.2 hrefused, ih (Option.map_eq_none_iff.1 h)⟩

end Picking

namespace JoinTree

/-- The tables that some joins bring in. -/
def rights (joins : List Join) : List String :=
  joins.map fun j => j.right.tableKey

/-- The two sides of some joins. -/
def sides (joins : List Join) : List (Reference × Reference) :=
  joins.map fun j => (j.left, j.right)

section Turning

variable {scope nodes : List String} {pending joins : List Join}

/-- A property that the tables in scope have, and both ends of each join or none, is one that all
nodes have. -/
def Spans (scope : List String) (pending : List Join) (nodes : List String) : Prop :=
  ∀ P : String → Prop, (∀ v ∈ scope, P v) →
    (∀ j ∈ pending, (P j.left.tableKey ↔ P j.right.tableKey)) → ∀ v ∈ nodes, P v

theorem touches_iff {j : Join} :
    touches scope j = true ↔ j.left.tableKey ∈ scope ∨ j.right.tableKey ∈ scope := by
  rw [touches, Bool.or_eq_true, List.contains_iff_mem, List.contains_iff_mem]

theorem towards_eq_or (scope : List String) (j : Join) :
    towards scope j = j ∨ towards scope j = j.flipped := by
  unfold towards
  split
  · exact .inl rfl
  · exact .inr rfl

theorem left_towards_mem {j : Join} (h : touches scope j = true) :
    (towards scope j).left.tableKey ∈ scope := by
  unfold towards
  split
  · next hleft => exact List.contains_iff_mem.1 hleft
  · next hleft =>
      obtain hmem | hmem := touches_iff.1 h
      · exact absurd (List.contains_iff_mem.2 hmem) hleft
      · exact hmem

/-- Taking a join brings its other end into scope, and what is left still spans the nodes. -/
theorem Spans.towards {j : Join} {rest : List Join} (h : Spans scope pending nodes)
    (hpick : pick? (touches scope) pending = some (j, rest)) :
    Spans ((JoinTree.towards scope j).right.tableKey :: scope) rest nodes := by
  intro P hscope hrest
  obtain ⟨hright, hothers⟩ := List.forall_mem_cons.1 hscope
  refine h P hothers fun k hk => ?_
  obtain rfl | hk := List.mem_cons.1 ((perm_of_pick? hpick).mem_iff.2 hk)
  · -- one end of the join that is taken was in scope, the other one is now
    have hleft := hothers _ (left_towards_mem (accepts_of_pick? hpick))
    obtain heq | heq := towards_eq_or scope k
    · rw [heq] at hleft hright
      exact iff_of_true hleft hright
    · rw [heq] at hleft hright
      exact iff_of_true hright hleft
  · exact hrest k hk

/-- Joins that span some nodes, among them their own ends, can all be taken, and bring in all
nodes. -/
theorem Spans.exists_orient? (h : Spans scope pending nodes)
    (hends : ∀ j ∈ pending, j.left.tableKey ∈ nodes) :
    ∃ joins, orient? scope pending = some joins ∧ nodes ⊆ scope ++ rights joins := by
  fun_induction orient? scope pending with
  | case1 scope pending hnil =>
      obtain rfl := List.isEmpty_iff.1 hnil
      refine ⟨[], rfl, fun v hv => List.mem_append_left _ ?_⟩
      exact h (· ∈ scope) (fun _ hmem => hmem) (fun j hj => absurd hj List.not_mem_nil) v hv
  | case2 scope pending hsome hpick =>
      -- no join touches the scope, which has then all nodes, the ends of the joins too
      have hapart : ∀ j ∈ pending, j.left.tableKey ∉ scope ∧ j.right.tableKey ∉ scope := by
        intro j hj
        rw [← not_or, ← touches_iff, accepts_eq_false_of_pick? hpick j hj]
        exact Bool.false_ne_true
      have hall := h (· ∈ scope) (fun _ hmem => hmem) fun j hj =>
        iff_of_false (hapart j hj).1 (hapart j hj).2
      obtain ⟨j, hj⟩ := List.exists_mem_of_ne_nil pending fun heq => hsome (by rw [heq]; rfl)
      exact absurd (hall _ (hends j hj)) (hapart j hj).1
  | case3 scope pending hsome j rest hpick next ih =>
      have hrest : ∀ k ∈ rest, k.left.tableKey ∈ nodes := fun k hk =>
        hends k ((perm_of_pick? hpick).mem_iff.1 (List.mem_cons_of_mem _ hk))
      obtain ⟨joins, hjoins, hsub⟩ := ih (h.towards hpick) hrest
      refine ⟨next :: joins, ?_, fun v hv => ?_⟩
      · rw [hjoins]
        rfl
      · have hmem := hsub hv
        simp only [rights, List.map_cons, List.mem_append, List.mem_cons] at hmem ⊢
        tauto

/-- Joins that were taken one after the other bring in their tables, if these are different. -/
theorem joinScope_orient? (h : orient? scope pending = some joins) {there : List String}
    (hthere : ∀ v, v ∈ there ↔ v ∈ scope) (hnodup : (there ++ rights joins).Nodup) :
    Query.joinScope there (sides joins) = .ok (there ++ rights joins) := by
  -- along the run: the tables that are there are those of its scope, maybe in another order
  fun_induction orient? scope pending generalizing joins there with
  | case1 =>
      obtain rfl := Option.some.inj h
      simp [sides, rights, Query.joinScope]
  | case2 => cases h
  | case3 scope pending _ j rest hpick next =>
      rename_i ih
      obtain ⟨js, hjs, rfl⟩ := Option.map_eq_some_iff.1 h
      have hleft : next.left.tableKey ∈ there :=
        (hthere _).2 (left_towards_mem (accepts_of_pick? hpick))
      have hright : next.right.tableKey ∉ there := fun hmem =>
        List.disjoint_of_nodup_append hnodup hmem List.mem_cons_self
      have hassoc : there ++ rights (next :: js) = there ++ [next.right.tableKey] ++ rights js := by
        simp [rights]
      rw [hassoc] at hnodup ⊢
      have hmembers : ∀ v, v ∈ there ++ [next.right.tableKey] ↔
          v ∈ next.right.tableKey :: scope := by
        intro v
        rw [List.mem_append, List.mem_singleton, List.mem_cons, hthere, or_comm]
      rw [← ih hjs hmembers hnodup, sides, List.map_cons, Query.joinScope, ← sides]
      simp [hleft, hright]

/-- Each join is taken once, in one direction or the other. -/
theorem exists_perm_of_orient? (h : orient? scope pending = some joins) :
    ∃ taken, taken.Perm pending ∧
      List.Forall₂ (fun j k : Join => j = k ∨ j = k.flipped) joins taken := by
  fun_induction orient? scope pending generalizing joins with
  | case1 scope pending hnil =>
      obtain rfl := Option.some.inj h
      obtain rfl := List.isEmpty_iff.1 hnil
      exact ⟨[], List.Perm.refl _, .nil⟩
  | case2 => cases h
  | case3 scope pending _ k rest hpick next =>
      rename_i ih
      obtain ⟨js, hjs, rfl⟩ := Option.map_eq_some_iff.1 h
      obtain ⟨taken, hperm, hsame⟩ := ih hjs
      have hall : (k :: taken).Perm pending := (hperm.cons k).trans (perm_of_pick? hpick)
      exact ⟨k :: taken, hall, .cons (towards_eq_or scope k) hsame⟩

theorem mem_of_mem_orient? (h : orient? scope pending = some joins) {j : Join} (hj : j ∈ joins) :
    ∃ k ∈ pending, j = k ∨ j = k.flipped := by
  obtain ⟨taken, hperm, hsame⟩ := exists_perm_of_orient? h
  obtain ⟨hlength, heach⟩ := List.forall₂_iff_get.1 hsame
  obtain ⟨i, hi, rfl⟩ := List.mem_iff_getElem.1 hj
  exact ⟨taken[i], hperm.subset (List.getElem_mem _), heach i hi (hlength ▸ hi)⟩

end Turning

variable {s : Schema} {base : String} {t t' t'' : JoinTree}

/-- The tree has grown from a base table by join paths. -/
structure Grown (s : Schema) (base : String) (t : JoinTree) : Prop where
  base_eq : t.base = base
  grown : ∃ path, t.hops = path.map Hop.toJoin ∧ s.Leads [Name.normalize base] path
  root_there : Name.normalize t.root ∈ t.tables.map Name.normalize
  root_written : t.root = base ∨ s.Writes t.root

/-- All tables of a tree are tables of another one with the same base. -/
structure Within (t t' : JoinTree) : Prop where
  base_eq : t'.base = t.base
  tables : t.tables ⊆ t'.tables

theorem Within.refl (t : JoinTree) : t.Within t :=
  ⟨rfl, List.Subset.refl _⟩

theorem Within.trans (h : t.Within t') (h' : t'.Within t'') : t.Within t'' :=
  ⟨h'.base_eq.trans h.base_eq, List.Subset.trans h.tables h'.tables⟩

/-- The reference is to a table of the tree, by a name that is written in the schema, and to a column
that the schema has. -/
structure Grounded (s : Schema) (t : JoinTree) (r : Reference) : Prop where
  there : Name.normalize r.table ∈ t.tables.map Name.normalize
  written : r.table = t.base ∨ s.Writes r.table
  resolves : s.HasDistinctNames → s.Resolves r

theorem Grounded.mono {r : Reference} (h : Grounded s t r) (hwithin : t.Within t') :
    Grounded s t' r where
  there := by
    obtain ⟨name, hname, heq⟩ := List.mem_map.1 h.there
    exact List.mem_map.2 ⟨name, hwithin.tables hname, heq⟩
  written := by
    rw [hwithin.base_eq]
    exact h.written
  resolves := h.resolves

theorem base_mem_tables (t : JoinTree) : t.base ∈ t.tables :=
  List.mem_cons_self

/-- What is found in the tables of a tree is found in one of them. -/
theorem findInTables?_spec {α : Type} {f : Table → Option α} {a : α}
    (h : t.findInTables? s f = some a) :
    ∃ name ∈ t.tables, ∃ table, s.table? name = some table ∧ f table = some a := by
  obtain ⟨name, hname, hfound⟩ := List.exists_of_findSome?_eq_some h
  obtain ⟨table, htable, hf⟩ := Option.bind_eq_some_iff.1 hfound
  exact ⟨name, hname, table, htable, hf⟩

/-- A column of a table of the tree, under the name that the schema has for the table. -/
theorem grounded_of_table? {name : String} {table : Table} {c : Column} (hname : name ∈ t.tables)
    (htable : s.table? name = some table) (hc : c ∈ table.columns) (label : Option String) :
    Grounded s t ⟨table.name, c.name, label⟩ where
  there := List.mem_map.2 ⟨name, hname, (Schema.normalize_name_of_table? htable).symm⟩
  written := .inr (Schema.writes_table (Schema.mem_of_table? htable))
  resolves _ := Schema.resolves_of_table? (Schema.table?_name htable) hc label

/-- A column of the base table, under the name that the tree has for it. -/
theorem grounded_of_base {table : Table} {c : Column} (htable : s.table? t.base = some table)
    (hc : c ∈ table.columns) (label : Option String) : Grounded s t ⟨t.base, c.name, label⟩ where
  there := List.mem_map_of_mem t.base_mem_tables
  written := .inl rfl
  resolves _ := Schema.resolves_of_table? htable hc label

/-- A column of a table of the schema that is in the tree. -/
theorem grounded_of_mem {table : Table} {c : Column}
    (hthere : Name.normalize table.name ∈ t.tables.map Name.normalize)
    (htable : table ∈ s.tables) (hc : c ∈ table.columns) (label : Option String) :
    Grounded s t ⟨table.name, c.name, label⟩ where
  there := hthere
  written := .inr (Schema.writes_table htable)
  resolves hdistinct :=
    Schema.resolves_of_table? (Schema.table?_of_mem hdistinct htable) hc label

theorem dateColumn?_grounded {r : Reference} (h : t.dateColumn? s = some r) :
    Grounded s t r := by
  obtain ⟨name, hname, table, htable, hfound⟩ := findInTables?_spec h
  obtain ⟨c, hc, rfl⟩ := Option.map_eq_some_iff.1 hfound
  exact grounded_of_table? hname htable (Table.mem_of_dateColumn? hc) none

theorem mem_of_mem_joinsFrom {root : String} {joins : List Join}
    (h : t.joinsFrom root = .ok joins) {j : Join} (hj : j ∈ joins) :
    ∃ k ∈ t.hops, j = k ∨ j = k.flipped := by
  unfold joinsFrom at h
  split at h
  · next horient =>
      obtain rfl := Except.ok.inj h
      exact mem_of_mem_orient? horient hj
  · cases h

/-- All hops follow relationships of the schema, with no conditions of their own. -/
def Along (s : Schema) (t : JoinTree) : Prop :=
  ∀ j ∈ t.hops, j.Follows s ∧ j.conditions = []

/-- The joins of a query are hops, some of them turned round. -/
theorem Along.mem_joinsFrom (h : t.Along s) {root : String} {joins : List Join}
    (hjoins : t.joinsFrom root = .ok joins) {j : Join} (hj : j ∈ joins) :
    j.Follows s ∧ j.conditions = [] := by
  obtain ⟨k, hk, rfl | rfl⟩ := mem_of_mem_joinsFrom hjoins hj
  · exact h _ hk
  · obtain ⟨hfollows, hbare⟩ := h k hk
    exact ⟨hfollows.flipped, hbare⟩

section Growing

theorem grown_ofBase (s : Schema) (base : String) : Grown s base (ofBase base) where
  base_eq := rfl
  grown := ⟨[], rfl, .nil⟩
  root_there := List.mem_cons_self
  root_written := .inl rfl

theorem map_normalize_tables {path : List Hop} (h : t.hops = path.map Hop.toJoin) :
    t.tables.map Name.normalize = Schema.reached [Name.normalize t.base] path := by
  rw [tables, h, Schema.reached, List.map_cons, List.map_map, List.map_map]
  rfl

/-- Joining one more table. -/
theorem Grown.join? (h : Grown s base t) {table : String} (hjoin : t.join? s table = some t') :
    Grown s base t' ∧ t.Within t' ∧
      Name.normalize table ∈ t'.tables.map Name.normalize := by
  obtain ⟨rfl, ⟨before, hhops, hleads⟩, hroot, hwritten⟩ := h
  obtain ⟨path, hpath, rfl⟩ := Option.map_eq_some_iff.1 hjoin
  obtain ⟨hmore, htarget⟩ := Schema.leads_joinPath? hpath
  rw [map_normalize_tables hhops] at hmore htarget
  have hall : t.hops ++ path.map Hop.toJoin = (before ++ path).map Hop.toJoin := by
    rw [hhops, List.map_append]
  have hwithin : t.tables ⊆ t.base :: (t.hops ++ path.map Hop.toJoin).map Join.table := by
    rw [List.map_append]
    exact List.cons_subset_cons _ (List.subset_append_left _ _)
  refine ⟨⟨rfl, ⟨before ++ path, hall, hleads.append hmore⟩, ?_, hwritten⟩, ⟨rfl, hwithin⟩, ?_⟩
  · exact List.map_subset _ hwithin hroot
  · rwa [map_normalize_tables hall, Schema.reached_append]

/-- The query may start from any table of the tree. -/
theorem Grown.withRoot (h : Grown s base t) {root : String}
    (hthere : Name.normalize root ∈ t.tables.map Name.normalize) (hwritten : s.Writes root) :
    Grown s base { t with root } :=
  ⟨h.base_eq, h.grown, hthere, .inr hwritten⟩

theorem Grown.written (h : Grown s base t) {name : String} (hname : name ∈ t.tables) :
    name = base ∨ s.Writes name := by
  obtain ⟨rfl, ⟨path, hhops, hleads⟩, -, -⟩ := h
  rw [tables, hhops, List.map_map] at hname
  obtain rfl | hname := List.mem_cons.1 hname
  · exact .inl rfl
  · obtain ⟨hop, hhop, rfl⟩ := List.mem_map.1 hname
    exact .inr (hleads.isHop hop hhop).to_written

theorem Grown.along (h : Grown s base t) : t.Along s := by
  obtain ⟨-, ⟨path, hhops, hleads⟩, -, -⟩ := h
  intro j hj
  rw [hhops] at hj
  obtain ⟨hop, hhop, rfl⟩ := List.mem_map.1 hj
  exact ⟨(hleads.isHop hop hhop).connects, rfl⟩

end Growing

section Plain

variable {scope nodes : List String} {joins : List Join}

theorem nodup_of_joinScope (h : Query.joinScope scope (sides joins) = .ok nodes)
    (hnodup : scope.Nodup) : nodes.Nodup := by
  induction joins generalizing scope with
  | nil => rwa [← Except.ok.inj h]
  | cons j joins ih =>
      rw [sides, List.map_cons, Query.joinScope, ← sides] at h
      split at h
      · cases h
      · split at h
        · cases h
        · next hnew =>
            refine ih h ?_
            rw [← List.concat_eq_append]
            exact hnodup.concat fun hmem => hnew (List.contains_iff_mem.2 hmem)

theorem left_mem_of_joinScope (h : Query.joinScope scope (sides joins) = .ok nodes) {j : Join}
    (hj : j ∈ joins) : j.left.tableKey ∈ nodes := by
  obtain ⟨hall, rfl⟩ := (Query.joinScope_eq_ok_iff _ _ _).1 h
  obtain ⟨i, hi⟩ := List.mem_iff_getElem?.1 hj
  have hleft := (hall i (j.left, j.right) (by simp [sides, hi])).1
  obtain hmem | hmem := List.mem_append.1 hleft
  · exact List.mem_append_left _ hmem
  · exact List.mem_append_right _ (List.map_subset _ (List.take_subset i _) hmem)

/-- Joins that bring in their tables one after the other: a property that both ends of each join
have, or none, holds of all tables or of none. -/
theorem iff_of_joinScope {P : String → Prop} {q : Prop}
    (h : Query.joinScope scope (sides joins) = .ok nodes) (hscope : ∀ v ∈ scope, (P v ↔ q))
    (hjoins : ∀ j ∈ joins, (P j.left.tableKey ↔ P j.right.tableKey)) :
    ∀ v ∈ nodes, (P v ↔ q) := by
  induction joins generalizing scope with
  | nil => rwa [← Except.ok.inj h]
  | cons j joins ih =>
      obtain ⟨hj, hrest⟩ := List.forall_mem_cons.1 hjoins
      rw [sides, List.map_cons, Query.joinScope, ← sides] at h
      split at h
      · cases h
      · next hleft =>
          split at h
          · cases h
          · refine ih h (fun v hv => ?_) hrest
            obtain hv | hv := List.mem_append.1 hv
            · exact hscope v hv
            · -- the table that is brought in goes with the one that it is joined to
              have hthere : j.left.tableKey ∈ scope := by simpa using hleft
              rw [List.mem_singleton.1 hv, ← hj]
              exact hscope _ hthere

/-- From any of the tables that they bring in the joins span all of them. -/
theorem spans_of_joinScope {first root : String}
    (h : Query.joinScope [first] (sides joins) = .ok nodes) (hroot : root ∈ nodes) :
    Spans [root] joins nodes := by
  intro P hscope hjoins v hv
  have hall : ∀ v ∈ nodes, (P v ↔ P first) :=
    iff_of_joinScope h (List.forall_mem_singleton.2 Iff.rfl) hjoins
  have hfirst : P first := (hall root hroot).1 (hscope root List.mem_cons_self)
  exact (hall v hv).2 hfirst

/-- The joins can be turned round to start from any of their tables, and bring in the others. -/
theorem exists_orient?_of_joinScope {first root : String}
    (h : Query.joinScope [first] (sides joins) = .ok nodes) (hroot : root ∈ nodes) :
    ∃ turned, orient? [root] joins = some turned ∧
      Query.joinScope [root] (sides turned) = .ok (root :: rights turned) ∧
      (root :: rights turned).Perm nodes := by
  obtain ⟨turned, hturned, hsub⟩ := (spans_of_joinScope h hroot).exists_orient? fun j hj =>
    left_mem_of_joinScope h hj
  -- there are as many places as tables, so that no table stands in two of them
  have hlength : (root :: rights turned).length ≤ nodes.length := by
    rw [Query.joinScope_eq h]
    simp [rights, sides, length_of_orient? hturned]
  have hnodes : nodes.Nodup := nodup_of_joinScope h (List.nodup_singleton first)
  have hperm := (hnodes.subperm hsub).perm_of_length_le hlength
  exact ⟨turned, hturned, joinScope_orient? hturned (fun _ => Iff.rfl) (hperm.nodup_iff.1 hnodes),
    hperm.symm⟩

/-- The steps of a path can be made one after the other, where names are bare. -/
theorem joinScope_of_leads (hbare : s.HasBareNames) {start : List String} {path : List Hop}
    (h : s.Leads start path) :
    Query.joinScope start (sides (path.map Hop.toJoin)) = .ok (Schema.reached start path) := by
  induction h with
  | nil => simp [sides, Query.joinScope]
  | @concat path hop _ hhop hfrom hto ih =>
      have hleft : hop.toJoin.left.tableKey = Name.normalize hop.fromTable :=
        (hbare _ hhop.from_written).normalize_eq.symm
      have hright : hop.toJoin.right.tableKey = Name.normalize hop.toTable :=
        (hbare _ hhop.to_written).normalize_eq.symm
      rw [List.map_append, sides, List.map_append, Query.joinScope_append, ← sides, ih]
      simp [Except.bind, Query.joinScope, hleft, hright, hfrom, hto]

/-- The joins of a query over a grown tree, from the table that the query starts from: they can be
made one after the other, and bring in the table of every reference to the tree. -/
theorem Grown.joinsFrom (h : Grown s base t) (hplain : s.HasPlainNames)
    (hbase : Name.IsPlain base) :
    ∃ joins, t.joinsFrom t.root = .ok joins ∧
      Query.joinScope [Text.lower t.root] (sides joins) =
        .ok (Text.lower t.root :: rights joins) ∧
      ∀ r, Grounded s t r → r.tableKey ∈ Text.lower t.root :: rights joins := by
  obtain ⟨rfl, ⟨path, hhops, hleads⟩, hthere, hroot⟩ := h
  -- plain names are told apart by their small letters, as in the check of scopes
  have hplainName {name : String} (hname : name = t.base ∨ s.Writes name) :
      Name.normalize name = Text.lower name := by
    obtain rfl | hwritten := hname
    · exact hbase.normalize_eq
    · exact (hplain name hwritten).normalize_eq
  have hscope := joinScope_of_leads hplain.bare hleads
  rw [← hhops, ← map_normalize_tables hhops] at hscope
  rw [hplainName hroot] at hthere
  obtain ⟨joins, hjoins, hok, hperm⟩ := exists_orient?_of_joinScope hscope hthere
  refine ⟨joins, ?_, hok, fun r hr => hperm.symm.subset ?_⟩
  · rw [JoinTree.joinsFrom, hjoins]
  · have hmem := hr.there
    rwa [hplainName hr.written] at hmem

end Plain

end JoinTree

end AskSql
