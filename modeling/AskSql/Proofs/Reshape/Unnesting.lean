import AskSql.Proofs.Query.Subqueries
import AskSql.Proofs.Reshape.Scope

/-!
# Subqueries turned into joins

A condition that asks for a member of a plain subquery keeps a row or drops it.  The join that takes
its place brings in every row of the other table that matches.  Both come to the same when no more
than one row matches, and what tells rows apart is the declared primary key of the table, all of its
columns taken together.

* Where the selected column is the whole declared key, the query reads the rows that it read before,
  seen on the tables that it had (`unnest_keeps_rows`).  One condition after the other becomes a
  join at the end of the query; what is there already, left joins among it, is not looked into.
* The column that is looked for is the first of the declared ones, or one named `id` where none is
  declared.  The first column of a key of several columns may hold a value twice, and then the join
  reads a row twice (`unnest_doubles_row_groupMembers`).  The same goes for a column `id` that is no
  key.
-/

namespace AskSql

/-- The columns that the table declares as its primary key. -/
def Table.declaredKey (t : Table) : List Column :=
  t.columns.filter Column.primaryKey

/-- What a row holds in the declared key. -/
def Table.keyValues {ν : Type} (t : Table) (row : Row ν) : List (Option ν) :=
  t.declaredKey.map fun c => row (Text.lower c.name)

/-- The declared primary key of each table is unique in its rows and never NULL. -/
def Contents.KeepsKeys {ν : Type} (db : Contents ν) (s : Schema) : Prop :=
  ∀ name t, s.table? name = some t → t.declaredKey ≠ [] →
    (∀ row ∈ db (Text.lower name), none ∉ t.keyValues row) ∧
      ((db (Text.lower name)).map t.keyValues).Nodup

theorem Contents.keepsKeys_of_forall {ν : Type} {db : Contents ν} {s : Schema}
    (h : ∀ name, ∀ t ∈ s.tables, (∀ row ∈ db name, none ∉ t.keyValues row) ∧
      ((db name).map t.keyValues).Nodup) : db.KeepsKeys s :=
  fun name t ht _ => h (Text.lower name) t (List.mem_of_find?_eq_some ht)

namespace Combination

variable {ν : Type}

/-- The combination as far as some tables are concerned. -/
def restrict (x : Combination ν) (tables : List String) : Combination ν :=
  fun t => if t ∈ tables then x t else none

theorem restrict_eq_self {x : Combination ν} {tables : List String}
    (h : ∀ t ∉ tables, x t = none) : x.restrict tables = x := by
  funext t
  by_cases ht : t ∈ tables
  · rw [restrict, if_pos ht]
  · rw [restrict, if_neg ht, h t ht]

theorem restrict_restrict (x : Combination ν) {few many : List String} (h : few ⊆ many) :
    (x.restrict many).restrict few = x.restrict few := by
  funext t
  by_cases ht : t ∈ few
  · simp [restrict, ht, h ht]
  · simp [restrict, ht]

/-- A table that is brought in is out of sight for the tables that were there. -/
theorem restrict_bring {x : Combination ν} {tables : List String} (h : ∀ t ∉ tables, x t = none)
    {table : String} (hnew : table ∉ tables) (row : Row ν) :
    (x.bring table row).restrict tables = x := by
  funext t
  by_cases ht : t ∈ tables
  · have hne : t ≠ table := fun he => hnew (he ▸ ht)
    rw [restrict, if_pos ht, x.bring_of_ne row hne]
  · rw [restrict, if_neg ht, h t ht]

theorem value_bring_self (x : Combination ν) (r : Reference) (row : Row ν) :
    (x.bring r.tableKey row).value r = row (Text.lower r.column) := by
  simp [value, bring]

theorem value_bring_of_ne (x : Combination ν) {r : Reference} {table : String} (row : Row ν)
    (h : r.tableKey ≠ table) : (x.bring table row).value r = x.value r := by
  rw [value, x.bring_of_ne row h, value]

end Combination

/-- A key of one column holds no value twice. -/
theorem Contents.KeepsKeys.nodup_of_declaredKey {ν : Type} {db : Contents ν} {s : Schema}
    (h : db.KeepsKeys s) {name : String} {t : Table} (ht : s.table? name = some t) {k : Column}
    (hk : t.declaredKey = [k]) :
    ((db (Text.lower name)).map fun row => row (Text.lower k.name)).Nodup := by
  have hkeys := (h name t ht (by simp [hk])).2
  have hsingle : t.keyValues = (fun v => [v]) ∘ fun row : Row ν => row (Text.lower k.name) := by
    funext row
    simp [Table.keyValues, hk]
  rw [hsingle, ← Multiset.map_map] at hkeys
  exact hkeys.of_map

/-- The join that looks for the value of a column among the keys of the rows that pass a filter. -/
def Join.toKey (outer key : Reference) (filters : List Condition) : Join :=
  { left := outer.unlabelled, right := key.unlabelled, conditions := filters }

section Rows

variable {ν : Type} [DecidableEq ν] (db : Contents ν) (I : Meaning ν)

/-- The join that looks for a key accepts a row when the row has the value of the column and passes
the filter of the subquery. -/
theorem Join.accepts_toKey_iff {outer key : Reference} {filters : List Condition}
    (houter : outer.tableKey ≠ key.tableKey)
    (hfilters : ∀ c ∈ filters, ∀ r ∈ c.references, r.tableKey = key.tableKey)
    (x : Combination ν) (row : Row ν) :
    (toKey outer key filters).accepts I (x.bring key.tableKey row) = true ↔
      ∃ v, x.value outer = some v ∧ row (Text.lower key.column) = some v ∧
        ∀ c ∈ filters, I.holds c (Combination.empty.bring key.tableKey row) = true := by
  have hleft : (x.bring key.tableKey row).value outer.unlabelled = x.value outer :=
    x.value_bring_of_ne row houter
  have hright : (x.bring key.tableKey row).value key.unlabelled = row (Text.lower key.column) :=
    x.value_bring_self key row
  have hties : (toKey outer key filters).ties (x.bring key.tableKey row) = true ↔
      ∃ v, x.value outer = some v ∧ row (Text.lower key.column) = some v := by
    simp only [ties, toKey, hleft, hright]
    cases x.value outer <;> cases row (Text.lower key.column) <;> simp [eq_comm]
  have hall : (filters.all fun c => I.holds c (x.bring key.tableKey row)) =
      filters.all fun c => I.holds c (Combination.empty.bring key.tableKey row) := by
    apply I.all_holds_congr
    intro c hc r hr
    rw [hfilters c hc r hr]
    simp [Combination.bring]
  rw [accepts, Bool.and_eq_true, hties]
  change _ ∧ (filters.all _) = true ↔ _
  rw [hall, List.all_eq_true]
  constructor
  · rintro ⟨⟨v, houter, hkey⟩, hfilter⟩
    exact ⟨v, houter, hkey, hfilter⟩
  · rintro ⟨v, houter, hkey, hfilter⟩
    exact ⟨⟨v, houter, hkey⟩, hfilter⟩

/-- The rows that a join finds for a combination. -/
def Join.found (j : Join) (x : Combination ν) : Multiset (Row ν) :=
  (db j.right.tableKey).filter fun row => j.accepts I (x.bring j.right.tableKey row)

/-- An inner join repeats a combination for each row that it finds, as seen on the tables that were
there. -/
theorem Join.map_restrict_extend_inner {j : Join} (hkind : j.kind = .inner)
    {tables : List String} (hnew : j.right.tableKey ∉ tables) {x : Combination ν}
    (hx : ∀ t ∉ tables, x t = none) :
    (j.extend db I x).map (fun y => y.restrict tables) =
      Multiset.replicate (j.found db I x).card x := by
  have hconst : ∀ row ∈ j.found db I x, (x.bring j.right.tableKey row).restrict tables = x :=
    fun row _ => Combination.restrict_bring hx hnew row
  have hextend : j.extend db I x = (j.found db I x).map (x.bring j.right.tableKey) := by
    rw [extend, hkind]
    exact Multiset.filter_map _ _ _
  rw [hextend, Multiset.map_map, ← Multiset.map_const']
  exact Multiset.map_congr rfl hconst

section Key

variable {outer key : Reference} {sub : Query} {x : Combination ν}

/-- The rows that match have the value of the column for their key. -/
theorem Join.card_found_toKey_le_one (houter : outer.tableKey ≠ key.tableKey)
    (hfilters : ∀ c ∈ sub.filters, ∀ r ∈ c.references, r.tableKey = key.tableKey)
    (hunique : ((db key.tableKey).map fun row => row (Text.lower key.column)).Nodup) :
    ((toKey outer key sub.filters).found db I x).card ≤ 1 := by
  rw [Multiset.nodup_iff_count_le_one] at hunique
  refine le_trans ?_ (hunique (x.value outer))
  rw [Multiset.count_map]
  apply Multiset.card_le_card
  apply Multiset.monotone_filter_right
  intro row hrow
  obtain ⟨v, hvalue, hkey, -⟩ := (accepts_toKey_iff I houter hfilters x row).1 hrow
  exact hvalue.trans hkey.symm

/-- The join finds a row where the condition holds that it stands for. -/
theorem Join.found_toKey_ne_zero_iff (hasks : I.Asks db) (hplain : sub.isPlainSelection = true)
    (hitems : sub.items = [.column key]) (hsource : key.tableKey = Text.lower sub.source)
    (houter : outer.tableKey ≠ key.tableKey)
    (hfilters : ∀ c ∈ sub.filters, ∀ r ∈ c.references, r.tableKey = key.tableKey) :
    (toKey outer key sub.filters).found db I x ≠ 0 ↔
      I.holds ⟨.column outer, .isIn, .subquery sub⟩ x = true := by
  have haccepts := fun row => accepts_toKey_iff I houter hfilters x row
  rw [hasks outer key sub x hplain hitems,
    Query.rows_of_joins_eq_nil db I (Query.joins_of_isPlainSelection hplain), ← hsource]
  simp only [Multiset.mem_filter, Multiset.mem_map, List.all_eq_true]
  constructor
  · intro hsome
    obtain ⟨row, hmatch⟩ := Multiset.exists_mem_of_ne_zero hsome
    obtain ⟨hrow, haccept⟩ := Multiset.mem_filter.1 hmatch
    obtain ⟨v, hvalue, hkey, hall⟩ := (haccepts row).1 haccept
    refine ⟨v, hvalue, _, ⟨⟨row, hrow, rfl⟩, hall⟩, ?_⟩
    rw [Combination.value_bring_self, hkey]
  · rintro ⟨v, hvalue, y, ⟨⟨row, hrow, rfl⟩, hall⟩, hkey⟩
    rw [Combination.value_bring_self] at hkey
    have hmatch : row ∈ (toKey outer key sub.filters).found db I x :=
      Multiset.mem_filter.2 ⟨hrow, (haccepts row).2 ⟨v, hvalue, hkey, hall⟩⟩
    intro hnone
    rw [hnone] at hmatch
    exact Multiset.notMem_zero row hmatch

/-- The join in place of a condition that asks for a key: a row that fulfils the condition stays
once, and any other is dropped. -/
theorem Join.map_restrict_extend_toKey (hasks : I.Asks db) (hplain : sub.isPlainSelection = true)
    (hitems : sub.items = [.column key]) (hsource : key.tableKey = Text.lower sub.source)
    (hfilters : ∀ c ∈ sub.filters, ∀ r ∈ c.references, r.tableKey = key.tableKey)
    (hunique : ((db key.tableKey).map fun row => row (Text.lower key.column)).Nodup)
    {tables : List String} (houter : outer.tableKey ∈ tables) (hnew : key.tableKey ∉ tables)
    (hx : ∀ t ∉ tables, x t = none) :
    ((toKey outer key sub.filters).extend db I x).map (fun y => y.restrict tables) =
      if I.holds ⟨.column outer, .isIn, .subquery sub⟩ x then {x} else 0 := by
  have hne : outer.tableKey ≠ key.tableKey := fun h => hnew (h ▸ houter)
  have hholds := found_toKey_ne_zero_iff db I (x := x) hasks hplain hitems hsource hne hfilters
  have hcard := card_found_toKey_le_one db I (x := x) hne hfilters hunique
  have hright : (toKey outer key sub.filters).right.tableKey ∉ tables := hnew
  rw [map_restrict_extend_inner db I (j := toKey outer key sub.filters) rfl hright hx]
  -- of a unique key one row is found, or none
  by_cases hnone : (toKey outer key sub.filters).found db I x = 0
  · have hfails : ¬ I.holds ⟨.column outer, .isIn, .subquery sub⟩ x = true :=
      fun h => hholds.2 h hnone
    rw [if_neg hfails, hnone, Multiset.card_zero, Multiset.replicate_zero]
  · have hpos := Multiset.card_pos.2 hnone
    have hone : ((toKey outer key sub.filters).found db I x).card = 1 := by omega
    rw [if_pos (hholds.1 hnone), hone, Multiset.replicate_one]

end Key

namespace Query

/-- A plain subquery selects its key and nothing else. -/
theorem items_eq_of_selectedKey? {s : Schema} {q : Query} {key : Reference}
    (hplain : q.isPlainSelection = true) (h : q.selectedKey? s = some key) :
    q.items = [.column key] := by
  have hlength : q.items.length = 1 := by
    simp only [isPlainSelection, Bool.and_eq_true, beq_iff_eq] at hplain
    exact hplain.2
  obtain ⟨item, hitem⟩ := List.length_eq_one_iff.1 hlength
  have hmem := mem_plainColumns.1 (selectedKey?_spec h).1
  rw [hitem, List.mem_singleton] at hmem
  rw [hitem, hmem]

/-- No combination has a row of a table that the query does not read. -/
theorem eq_none_of_mem_joinedRows {q : Query} {x : Combination ν} (h : x ∈ q.joinedRows db I)
    {t : String} (ht : t ∉ q.tableKeys) : x t = none := by
  -- along the joins, with the scope so far as the invariant
  have hrun : ∀ (js : List Join) (scope : List String) (xs : Multiset (Combination ν)),
      (∀ x ∈ xs, ∀ t ∉ scope, x t = none) →
        ∀ x ∈ js.foldl (fun xs j => xs.bind (j.extend db I)) xs,
          ∀ t ∉ scope ++ js.map (fun j => j.right.tableKey), x t = none := by
    intro js
    induction js with
    | nil =>
        intro scope xs hxs
        simpa using hxs
    | cons j js ih =>
        intro scope xs hxs
        have hstep : ∀ y ∈ xs.bind (j.extend db I), ∀ t ∉ scope ++ [j.right.tableKey],
            y t = none := by
          intro y hy t ht
          obtain ⟨x, hx, hy⟩ := Multiset.mem_bind.1 hy
          obtain ⟨row, rfl⟩ := j.exists_bring_of_mem_extend db I hy
          simp only [List.mem_append, List.mem_singleton, not_or] at ht
          rw [x.bring_of_ne row ht.2, hxs x hx t ht.1]
        simpa using ih (scope ++ [j.right.tableKey]) (xs.bind (j.extend db I)) hstep
  have hsource : ∀ x ∈ db.bringAll {.empty} [Text.lower q.source],
      ∀ t ∉ [Text.lower q.source], x t = none := by
    intro x hx t ht
    simp only [Contents.bringAll, List.foldl_cons, List.foldl_nil, Multiset.singleton_bind,
      Multiset.mem_map] at hx
    obtain ⟨row, -, rfl⟩ := hx
    exact Combination.empty.bring_of_ne row (by simpa using ht)
  refine hrun q.joins [Text.lower q.source] _ hsource x h t ?_
  rwa [← scopeAfter_length, scopeAfter, List.take_length] at ht

theorem map_restrict_rows (q : Query) :
    (q.rows db I).map (fun x => x.restrict q.tableKeys) = q.rows db I := by
  have hself : ∀ x ∈ q.rows db I, x.restrict q.tableKeys = x := by
    intro x hx
    exact Combination.restrict_eq_self fun t ht =>
      eq_none_of_mem_joinedRows db I (Multiset.mem_filter.1 hx).1 ht
  rw [Multiset.map_congr rfl hself, Multiset.map_id']

/-- A condition that asks for a member of a plain subquery may become a join, where the selected
column is the whole declared key. -/
theorem map_restrict_rows_withJoin {q : Query} {s : Schema} {kept rest : List Condition}
    {c : Condition} {j : Join} (hq : q.WellScoped) (hfilters : q.filters = kept ++ c :: rest)
    (hj : c.unnested? s q.tables = some j)
    (hsimple : ∀ sub t k, c.rhs = .subquery sub → s.table? sub.source = some t →
      t.primaryKey? = some k → t.declaredKey = [k])
    (hkeys : db.KeepsKeys s) (hasks : I.Asks db) :
    ((q.withJoin j (kept ++ rest)).rows db I).map (fun x => x.restrict q.tableKeys) =
      q.rows db I := by
  have hc : c ∈ q.filters := by simp [hfilters]
  obtain ⟨hleft, hnew, -, hmentions⟩ := hq.unnested? hc hj
  obtain ⟨outer, key, sub, rfl, hplain, hkey, -, rfl⟩ := Condition.unnested?_eq_some hj
  have houter : outer.tableKey ∈ q.tableKeys := hleft
  have hkeyNew : key.tableKey ∉ q.tableKeys := hnew
  have hon : ∀ d ∈ sub.filters, ∀ r ∈ d.references, r.tableKey = key.tableKey :=
    fun d hd => (hmentions d hd).references
  obtain ⟨hcolumn, hsource, t, k, ht, hk, hname⟩ := selectedKey?_spec hkey
  have hunique : ((db key.tableKey).map fun row => row (Text.lower key.column)).Nodup := by
    rw [hsource, Text.sameFold_iff.1 hname]
    exact hkeys.nodup_of_declaredKey ht (hsimple sub t k rfl ht hk)
  -- the other conditions look at tables of before, so they may be tested before the join
  have hothers : ∀ (x : Combination ν) row,
      ((kept ++ rest).all fun c => I.holds c (x.bring key.tableKey row)) =
        (kept ++ rest).all fun c => I.holds c x := by
    intro x row
    have hsublist : (kept ++ rest).Sublist q.filters := by
      rw [hfilters]
      exact (List.sublist_cons_self _ rest).append_left kept
    apply I.all_holds_congr
    intro d hd r hr
    apply x.bring_of_ne
    intro he
    exact hkeyNew (he ▸ (hq.mentions.filters d (hsublist.subset hd)).references r hr)
  let j := Join.toKey outer key sub.filters
  have hjoined : (q.withJoin j (kept ++ rest)).joinedRows db I =
      (q.joinedRows db I).bind (j.extend db I) := by
    simp [joinedRows, withJoin, withClauses, List.foldl_append]
  have hrows : (q.withJoin j (kept ++ rest)).rows db I =
      ((q.joinedRows db I).filter fun x => (kept ++ rest).all fun c => I.holds c x).bind
        (j.extend db I) := by
    rw [Join.bind_extend_of_unread db I hothers, ← hjoined]
    rfl
  have hone : ∀ x ∈ (q.joinedRows db I).filter
      fun x => (kept ++ rest).all fun c => I.holds c x,
      (j.extend db I x).map (fun y => y.restrict q.tableKeys) =
        if I.holds ⟨.column outer, .isIn, .subquery sub⟩ x then {x} else 0 := by
    intro x hx
    have hsupport : ∀ t ∉ q.tableKeys, x t = none := fun t ht =>
      eq_none_of_mem_joinedRows db I (Multiset.mem_filter.1 hx).1 ht
    exact Join.map_restrict_extend_toKey db I hasks hplain (items_eq_of_selectedKey? hplain hkey)
      hsource hon hunique houter hkeyNew hsupport
  change ((q.withJoin j (kept ++ rest)).rows db I).map _ = _
  rw [hrows, Multiset.map_bind, Multiset.bind_congr hone, ← Multiset.filter_eq_bind,
    Multiset.filter_filter, rows]
  apply Multiset.filter_congr
  intro x _
  rw [hfilters, List.perm_middle.all_eq, List.all_cons, Bool.and_eq_true]

/-- `p` reads the rows of `q`, as seen on the tables of `q`.  These are there, and the conditions
that are left over are of `q`. -/
structure KeepsRows (q p : Query) : Prop where
  well_scoped : p.WellScoped
  filters : p.filters ⊆ q.filters
  tables : q.tableKeys ⊆ p.tableKeys
  rows : (p.rows db I).map (fun x => x.restrict q.tableKeys) = q.rows db I

variable {db I} in
/-- One condition more becomes a join. -/
theorem KeepsRows.withJoin {q p : Query} {s : Schema} {kept rest : List Condition} {c : Condition}
    {j : Join} (h : q.KeepsRows db I p) (hfilters : p.filters = kept ++ c :: rest)
    (hj : c.unnested? s p.tables = some j)
    (hsimple : ∀ sub t k, c.rhs = .subquery sub → s.table? sub.source = some t →
      t.primaryKey? = some k → t.declaredKey = [k])
    (hkeys : db.KeepsKeys s) (hasks : I.Asks db) :
    q.KeepsRows db I (p.withJoin j (kept ++ rest)) := by
  have hsublist : (kept ++ rest).Sublist p.filters := by
    rw [hfilters]
    exact (List.sublist_cons_self c rest).append_left kept
  have hc : c ∈ p.filters := by simp [hfilters]
  obtain ⟨hleft, hnew, -, hon⟩ := h.well_scoped.unnested? hc hj
  have hone := map_restrict_rows_withJoin db I h.well_scoped hfilters hj hsimple hkeys hasks
  have hmore : (p.withJoin j (kept ++ rest)).tableKeys = p.tableKeys ++ [j.right.tableKey] :=
    tableKeys_withJoin
  constructor
  · exact h.well_scoped.withJoin hsublist.subset hleft hnew hon
  · exact List.Subset.trans hsublist.subset h.filters
  · rw [hmore]
    exact List.Subset.trans h.tables (List.subset_append_left _ _)
  · rw [← h.rows, ← hone, Multiset.map_map]
    exact Multiset.map_congr rfl fun x _ => (x.restrict_restrict h.tables).symm

/-- Where every subquery that could become a join selects the whole declared key of its table, the
query with its subqueries turned into joins reads the rows that it read before, seen on the tables
that it had. -/
theorem unnest_keeps_rows {q : Query} {s : Schema} (hvalid : q.validate = .ok ())
    (hsimple : ∀ c ∈ q.filters, ∀ sub t k, c.rhs = .subquery sub →
      s.table? sub.source = some t → t.primaryKey? = some k → t.declaredKey = [k])
    {ν : Type} [DecidableEq ν] (db : Contents ν) (hkeys : db.KeepsKeys s) (I : Meaning ν)
    (hasks : I.Asks db) :
    ((q.unnest s).query.rows db I).map (fun x => x.restrict q.tableKeys) = q.rows db I := by
  have hgiven : q.KeepsRows db I q :=
    ⟨(validate_eq_ok_iff q).1 hvalid, List.Subset.refl _, List.Subset.refl _,
      map_restrict_rows db I q⟩
  refine (unnest_induction (R := q.KeepsRows db I) s hgiven ?_).rows
  intro joins kept rest c j h hj
  have hc : c ∈ q.filters := h.filters (List.mem_append_right kept List.mem_cons_self)
  exact h.withJoin rfl hj (hsimple c hc) hkeys hasks

end Query

end Rows

/-- Every condition holds. -/
def Meaning.trivial : Meaning Nat where
  holds _ _ := true
  holds_congr _ _ _ _ := rfl

namespace Query

/-- Products with a number of their own. -/
def productSchema : Schema where
  tables := [
    { name := "products"
      columns := [
        { name := "id", type := .integer, primaryKey := true },
        { name := "on_sale", type := .boolean }] }]

/-- The products on sale are joined behind the customers. -/
theorem unnest_keeps_rows_romanOrders :
    let db : Contents Nat := fun _ => {fun _ => some 1}
    let I := Meaning.trivial.asking db
    romanOrders.validate = .ok () ∧ db.KeepsKeys productSchema ∧ I.Asks db ∧
      (romanOrders.unnest productSchema).query.tables = ["orders", "customers", "products"] ∧
      (romanOrders.rows db I).card = 1 ∧
      ((romanOrders.unnest productSchema).query.rows db I).map
          (fun x => x.restrict romanOrders.tableKeys) = romanOrders.rows db I := by
  intro db I
  have hkeys : db.KeepsKeys productSchema :=
    Contents.keepsKeys_of_forall fun _ => by decide
  have hsimple : ∀ t ∈ productSchema.tables, ∀ k ∈ t.primaryKey?, t.declaredKey = [k] := by
    decide
  have hasks := Meaning.trivial.asks_asking db
  exact ⟨rfl, hkeys, hasks, by decide, by decide +kernel,
    unnest_keeps_rows rfl (fun _ _ _ t k _ ht => hsimple t (List.mem_of_find?_eq_some ht) k) db
      hkeys I hasks⟩

/-- Users, and the groups that they are in: a user may be in several groups. -/
def groupSchema : Schema where
  tables := [
    { name := "members"
      columns := [
        { name := "user_id", type := .integer, primaryKey := true },
        { name := "group_id", type := .integer, primaryKey := true }] },
    { name := "users"
      columns := [
        { name := "id", type := .integer, primaryKey := true },
        { name := "name", type := .text }] }]

/-- The users that are in some group. -/
def groupMembers : Query where
  source := "users"
  items := [.column ⟨"users", "name", none⟩]
  filters := [
    ⟨.column ⟨"users", "id", none⟩, .isIn, .subquery {
      source := "members"
      items := [.column ⟨"members", "user_id", none⟩] }⟩]

/-- User 1 is in the groups 1 and 2.  The column `user_id` is the first of the two that make the
key, so the subquery becomes a join, and this join reads the user twice. -/
theorem unnest_doubles_row_groupMembers :
    let db : Contents Nat := fun _ =>
      {fun _ => some 1, fun column => if column = "user_id" then some 1 else some 2}
    let I := Meaning.trivial.asking db
    groupMembers.validate = .ok () ∧ db.KeepsKeys groupSchema ∧ I.Asks db ∧
      (groupMembers.rows db I).card = 1 ∧
      (((groupMembers.unnest groupSchema).query.rows db I).map
        fun x => x.restrict groupMembers.tableKeys).card = 2 := by
  intro db I
  have hkeys : db.KeepsKeys groupSchema :=
    Contents.keepsKeys_of_forall fun _ => by decide
  exact ⟨rfl, hkeys, Meaning.trivial.asks_asking db, by decide +kernel, by decide +kernel⟩

end Query

end AskSql
