import AskSql.Proofs.Query.Mentions
import AskSql.Proofs.Query.Nested
import AskSql.Query.Rename

/-!
# Renamed tables

`Query.mapTables f` puts the name `f t` in the place of each name `t` of a table, subqueries apart.
Every reference and every table is reached, and what is reached changes by its name alone
(`Query.references_mapTables`, `Query.tables_mapTables`), so a query stays well scoped wherever its
own names are told apart as before (`Query.WellScoped.mapTables`).

To rename a table is to map one name.  A name that is not there yet leaves the names of the query
told apart, and is taken for no other one on the way back: what comes back is the query with the
one name in the spelling in which it was asked for (`Query.renameTable_faithful`).
-/

namespace AskSql

/-! ### Other names for tables -/

section Mapping

variable (f : String → String)

/-- The reference under another name of its table. -/
def Reference.mapTable (r : Reference) : Reference :=
  { r with table := f r.table }

/-- The argument with other names of tables. -/
def Argument.mapTables : Argument → Argument
  | column c => column (c.mapTable f)
  | arithmetic left op right => arithmetic (left.mapTable f) op (right.mapTable f)
  | raw sql => raw sql

/-- The aggregate with other names of tables. -/
def Aggregate.mapTables (a : Aggregate) : Aggregate :=
  { a with argument := a.argument.mapTables f }

/-- The item with other names of tables. -/
def Item.mapTables : Item → Item
  | column c => column (c.mapTable f)
  | aggregate a => aggregate (a.mapTables f)

/-- The left side with other names of tables. -/
def Operand.mapTables : Operand → Operand
  | column c => column (c.mapTable f)
  | aggregate a => aggregate (a.mapTables f)
  | monthOf c => monthOf (c.mapTable f)
  | literal v => literal v

/-- The right side with another name of its table. -/
def Comparand.mapTables : Comparand → Comparand
  | column c => column (c.mapTable f)
  | other => other

/-- The condition with other names of tables. -/
def Condition.mapTables (c : Condition) : Condition :=
  ⟨c.lhs.mapTables f, c.op, c.rhs.mapTables f⟩

/-- The join with other names of tables. -/
def Join.mapTables (j : Join) : Join :=
  { j with
    left := j.left.mapTable f
    right := j.right.mapTable f
    conditions := j.conditions.map (Condition.mapTables f) }

/-- The key of the order with other names of tables. -/
def SortKey.mapTables (k : SortKey) : SortKey :=
  { k with item := k.item.mapTables f }

/-- The query with other names of tables; its subqueries keep theirs. -/
def Query.mapTables (q : Query) : Query :=
  { q with
    source := f q.source
    items := q.items.map (Item.mapTables f)
    joins := q.joins.map (Join.mapTables f)
    filters := q.filters.map (Condition.mapTables f)
    groupBy := q.groupBy.map (Reference.mapTable f)
    having := q.having.map (Condition.mapTables f)
    orderBy := q.orderBy.map (SortKey.mapTables f) }

/-! ### What is reached -/

theorem Aggregate.references_mapTables (a : Aggregate) :
    (a.mapTables f).references = a.references.map (Reference.mapTable f) := by
  obtain ⟨function, argument, label, distinct⟩ := a
  cases argument <;> rfl

theorem Item.references_mapTables (i : Item) :
    (i.mapTables f).references = i.references.map (Reference.mapTable f) := by
  cases i with
  | column c => rfl
  | aggregate a => exact a.references_mapTables f

theorem Operand.references_mapTables (a : Operand) :
    (a.mapTables f).references = a.references.map (Reference.mapTable f) := by
  cases a with
  | aggregate a => exact a.references_mapTables f
  | _ => rfl

theorem Condition.references_mapTables (c : Condition) :
    (c.mapTables f).references = c.references.map (Reference.mapTable f) := by
  obtain ⟨lhs, op, rhs⟩ := c
  cases rhs with
  | column r =>
      change (lhs.mapTables f).references ++ [r.mapTable f] =
        (lhs.references ++ [r]).map (Reference.mapTable f)
      rw [lhs.references_mapTables, List.map_append, List.map_singleton]
  | _ => exact lhs.references_mapTables f

theorem Condition.subquery?_mapTables (c : Condition) :
    (c.mapTables f).rhs.subquery? = c.rhs.subquery? := by
  obtain ⟨lhs, op, rhs⟩ := c
  cases rhs <;> rfl

namespace Query

variable (q : Query)

theorem references_mapTables :
    (q.mapTables f).references = q.references.map fun x => (x.1, x.2.mapTable f) := by
  simp only [references, mapTables, List.map_append, List.map_map, List.flatMap_map,
    List.map_flatMap, Item.references_mapTables, Condition.references_mapTables, Join.mapTables,
    SortKey.mapTables, List.map_cons, Function.comp_def]

theorem tables_mapTables : (q.mapTables f).tables = q.tables.map f := by
  simp only [tables, mapTables, List.map_cons, List.map_map]
  rfl

theorem conditions_mapTables :
    (q.mapTables f).conditions = q.conditions.map (Condition.mapTables f) := by
  simp only [conditions, mapTables, List.map_append, List.flatMap_map, List.map_flatMap,
    Join.mapTables]

theorem subqueries_mapTables : (q.mapTables f).subqueries = q.subqueries := by
  rw [subqueries, conditions_mapTables, List.filterMap_map, subqueries]
  exact congrArg (q.conditions.filterMap ·) (funext fun c => c.subquery?_mapTables f)

end Query
end Mapping

/-! ### One mapping behind another -/

section Twice

variable {f g k : String → String}

theorem Reference.mapTable_mapTable {r : Reference} (h : g (f r.table) = k r.table) :
    (r.mapTable f).mapTable g = r.mapTable k := by
  rw [mapTable, mapTable, mapTable, h]

theorem Aggregate.mapTables_mapTables {a : Aggregate}
    (h : ∀ r ∈ a.references, g (f r.table) = k r.table) :
    (a.mapTables f).mapTables g = a.mapTables k := by
  obtain ⟨function, argument, label, distinct⟩ := a
  have hargument : (argument.mapTables f).mapTables g = argument.mapTables k := by
    cases argument with
    | column c => exact congrArg _ (Reference.mapTable_mapTable (h c List.mem_cons_self))
    | arithmetic left op right =>
        simp only [Argument.mapTables, Argument.arithmetic.injEq, true_and]
        exact ⟨Reference.mapTable_mapTable (h left List.mem_cons_self),
          Reference.mapTable_mapTable (h right (List.mem_cons_of_mem _ List.mem_cons_self))⟩
    | raw sql => rfl
  exact congrArg (Aggregate.mk function · label distinct) hargument

theorem Item.mapTables_mapTables {i : Item}
    (h : ∀ r ∈ i.references, g (f r.table) = k r.table) :
    (i.mapTables f).mapTables g = i.mapTables k := by
  cases i with
  | column c => exact congrArg _ (Reference.mapTable_mapTable (h c List.mem_cons_self))
  | aggregate a => exact congrArg _ (Aggregate.mapTables_mapTables h)

theorem Operand.mapTables_mapTables {a : Operand}
    (h : ∀ r ∈ a.references, g (f r.table) = k r.table) :
    (a.mapTables f).mapTables g = a.mapTables k := by
  cases a with
  | column c | monthOf c =>
      exact congrArg _ (Reference.mapTable_mapTable (h c List.mem_cons_self))
  | aggregate a => exact congrArg _ (Aggregate.mapTables_mapTables h)
  | literal v => rfl

theorem Condition.mapTables_mapTables {c : Condition}
    (h : ∀ r ∈ c.references, g (f r.table) = k r.table) :
    (c.mapTables f).mapTables g = c.mapTables k := by
  obtain ⟨lhs, op, rhs⟩ := c
  have hlhs : (lhs.mapTables f).mapTables g = lhs.mapTables k :=
    Operand.mapTables_mapTables fun r hr => h r (mem_references_of_lhs hr)
  have hrhs : (rhs.mapTables f).mapTables g = rhs.mapTables k := by
    cases rhs with
    | column r =>
        exact congrArg _ (Reference.mapTable_mapTable
          (h r (List.mem_append_right _ List.mem_cons_self)))
    | _ => rfl
  exact congrArg₂ (Condition.mk · op ·) hlhs hrhs

theorem Query.mapTables_mapTables {q : Query} (hsource : g (f q.source) = k q.source)
    (h : ∀ x ∈ q.references, g (f x.2.table) = k x.2.table) :
    (q.mapTables f).mapTables g = q.mapTables k := by
  have hmentions : q.Mentions (fun r => g (f r.table) = k r.table) (fun _ => True) :=
    mentions_iff.2 ⟨h, fun _ _ _ _ => trivial⟩
  have hconditions {cs : List Condition}
      (hcs : ∀ c ∈ cs, c.Mentions (fun r => g (f r.table) = k r.table) (fun _ => True)) :
      (cs.map (Condition.mapTables f)).map (Condition.mapTables g) =
        cs.map (Condition.mapTables k) := by
    rw [List.map_map]
    exact List.map_congr_left fun c hc => Condition.mapTables_mapTables (hcs c hc).references
  have hjoins : (q.joins.map (Join.mapTables f)).map (Join.mapTables g) =
      q.joins.map (Join.mapTables k) := by
    rw [List.map_map]
    refine List.map_congr_left fun j hj => ?_
    obtain ⟨hleft, hright, hbehind⟩ := hmentions.joins j hj
    simp only [Function.comp_apply, Join.mapTables, Reference.mapTable_mapTable hleft,
      Reference.mapTable_mapTable hright, hconditions hbehind]
  have hitems : (q.items.map (Item.mapTables f)).map (Item.mapTables g) =
      q.items.map (Item.mapTables k) := by
    rw [List.map_map]
    exact List.map_congr_left fun i hi => Item.mapTables_mapTables (hmentions.items i hi)
  have hgroups : (q.groupBy.map (Reference.mapTable f)).map (Reference.mapTable g) =
      q.groupBy.map (Reference.mapTable k) := by
    rw [List.map_map]
    exact List.map_congr_left fun r hr => Reference.mapTable_mapTable (hmentions.groupBy r hr)
  have hkeys : (q.orderBy.map (SortKey.mapTables f)).map (SortKey.mapTables g) =
      q.orderBy.map (SortKey.mapTables k) := by
    rw [List.map_map]
    refine List.map_congr_left fun key hkey => ?_
    exact congrArg (SortKey.mk · key.direction)
      (Item.mapTables_mapTables (hmentions.orderBy key hkey))
  simp only [mapTables, hsource, hitems, hjoins, hconditions hmentions.filters, hgroups,
    hconditions hmentions.having, hkeys]

end Twice

/-! ### The scope -/

namespace Query

variable {f : String → String} {q : Query}

/-- The tables that are there after some joins, under other names. -/
theorem scopeAfter_mapTables (f : String → String) (q : Query) (n : Nat) :
    (q.mapTables f).scopeAfter n =
      (q.source :: (q.joins.take n).map Join.table).map fun t => Text.lower (f t) := by
  simp only [scopeAfter, mapTables, ← List.map_take, List.map_cons, List.map_map]
  rfl

theorem scopeAfter_eq (q : Query) (n : Nat) :
    q.scopeAfter n = (q.source :: (q.joins.take n).map Join.table).map Text.lower := by
  rw [scopeAfter, List.map_cons, List.map_map]
  rfl

theorem scopeAfter_subset_tableKeys (q : Query) (n : Nat) : q.scopeAfter n ⊆ q.tableKeys := by
  rw [scopeAfter_eq, tableKeys, tables]
  exact List.map_subset _ (List.cons_subset_cons _ (List.map_subset _ (List.take_subset n q.joins)))

/-- Where the names of a query are told apart as before, a table is there under its new name if it
was there under its old one. -/
theorem mem_scopeAfter_mapTables
    (hnames : ∀ t u, Text.lower t ∈ q.tableKeys → Text.lower u ∈ q.tableKeys →
      (Text.lower (f t) = Text.lower (f u) ↔ Text.lower t = Text.lower u))
    {t : String} (ht : Text.lower t ∈ q.tableKeys) (n : Nat) :
    Text.lower (f t) ∈ (q.mapTables f).scopeAfter n ↔ Text.lower t ∈ q.scopeAfter n := by
  have hthere := q.scopeAfter_subset_tableKeys n
  rw [q.scopeAfter_eq] at hthere
  rw [scopeAfter_mapTables, q.scopeAfter_eq, List.mem_map, List.mem_map]
  refine exists_congr fun u => and_congr_right fun hu => ?_
  exact hnames u t (hthere (List.mem_map_of_mem hu)) ht

/-- A query stays well scoped under other names for its tables, if its source has a name again and
its names are told apart as before. -/
theorem WellScoped.mapTables (h : q.WellScoped)
    (hsource : Text.isBlankText (f q.source) = false)
    (hnames : ∀ t u, Text.lower t ∈ q.tableKeys → Text.lower u ∈ q.tableKeys →
      (Text.lower (f t) = Text.lower (f u) ↔ Text.lower t = Text.lower u)) :
    (q.mapTables f).WellScoped := by
  have hjoin {i : Nat} {j : Join} (hj : (q.mapTables f).joins[i]? = some j) :
      ∃ j' : Join, q.joins[i]? = some j' ∧ j'.mapTables f = j := by
    rw [Query.mapTables, List.getElem?_map] at hj
    exact Option.map_eq_some_iff.1 hj
  -- scopes and references go over name by name, as no two tables become one
  refine ⟨hsource, ?_, ?_, ?_, ?_⟩
  · intro i j hj
    obtain ⟨before, hbefore, rfl⟩ := hjoin hj
    have hleft := h.left_known i before hbefore
    exact (mem_scopeAfter_mapTables hnames (q.scopeAfter_subset_tableKeys i hleft) i).2 hleft
  · intro i j hj hthere
    obtain ⟨before, hbefore, rfl⟩ := hjoin hj
    have hright := right_mem_tableKeys (List.mem_of_getElem? hbefore)
    exact h.right_new i before hbefore ((mem_scopeAfter_mapTables hnames hright i).1 hthere)
  · intro x hx
    rw [references_mapTables] at hx
    obtain ⟨before, hbefore, rfl⟩ := List.mem_map.1 hx
    have hknown := h.references_known before hbefore
    have hlength : (q.mapTables f).joins.length = q.joins.length := List.length_map _
    rw [← scopeAfter_length, hlength]
    refine (mem_scopeAfter_mapTables hnames hknown _).2 ?_
    rwa [scopeAfter_length]
  · intro c hc sub hsub
    rw [conditions_mapTables] at hc
    obtain ⟨⟨lhs, op, rhs⟩, hbefore, rfl⟩ := List.mem_map.1 hc
    refine h.subqueries_valid _ hbefore sub ?_
    cases rhs with
    | subquery q => exact hsub
    | _ => cases hsub

end Query

/-! ### One name for another -/

/-- The name that a table has once the table `source` has taken the name `target`. -/
def renamed (source target t : String) : String :=
  if Text.sameFold t source then target else t

section Renaming

variable (source target : String)

theorem Reference.renameTable_eq (r : Reference) :
    r.renameTable source target = r.mapTable (renamed source target) := by
  rw [renameTable, mapTable, renamed]
  split <;> rfl

theorem Aggregate.renameTable_eq (a : Aggregate) :
    a.renameTable source target = a.mapTables (renamed source target) := by
  obtain ⟨function, argument, label, distinct⟩ := a
  cases argument <;>
    simp [renameTable, mapTables, Argument.renameTable, Argument.mapTables,
      Reference.renameTable_eq]

theorem Item.renameTable_eq (i : Item) :
    i.renameTable source target = i.mapTables (renamed source target) := by
  cases i with
  | column c => exact congrArg _ (c.renameTable_eq source target)
  | aggregate a => exact congrArg _ (a.renameTable_eq source target)

theorem Condition.renameTable_eq (c : Condition) :
    c.renameTable source target = c.mapTables (renamed source target) := by
  obtain ⟨lhs, op, rhs⟩ := c
  have hlhs : lhs.renameTable source target = lhs.mapTables (renamed source target) := by
    cases lhs with
    | column c | monthOf c => exact congrArg _ (c.renameTable_eq source target)
    | aggregate a => exact congrArg _ (a.renameTable_eq source target)
    | literal v => rfl
  have hrhs : rhs.renameTable source target = rhs.mapTables (renamed source target) := by
    cases rhs with
    | column c => exact congrArg _ (c.renameTable_eq source target)
    | _ => rfl
  exact congrArg₂ (Condition.mk · op ·) hlhs hrhs

theorem Join.renameTable_eq (j : Join) :
    j.renameTable source target = j.mapTables (renamed source target) := by
  simp only [renameTable, mapTables, Reference.renameTable_eq,
    List.map_congr_left fun c _ => Condition.renameTable_eq source target c]

theorem SortKey.renameTable_eq (k : SortKey) :
    k.renameTable source target = k.mapTables (renamed source target) := by
  rw [renameTable, mapTables, Item.renameTable_eq]

theorem Query.renameTable_eq (q : Query) :
    q.renameTable source target = q.mapTables (renamed source target) := by
  have hreferences : Reference.renameTable source target =
      Reference.mapTable (renamed source target) := funext (Reference.renameTable_eq source target)
  have hitems : Item.renameTable source target = Item.mapTables (renamed source target) :=
    funext (Item.renameTable_eq source target)
  have hconditions : Condition.renameTable source target =
      Condition.mapTables (renamed source target) := funext (Condition.renameTable_eq source target)
  have hjoins : Join.renameTable source target = Join.mapTables (renamed source target) :=
    funext (Join.renameTable_eq source target)
  have hkeys : SortKey.renameTable source target = SortKey.mapTables (renamed source target) :=
    funext (SortKey.renameTable_eq source target)
  rw [renameTable, mapTables, hreferences, hitems, hconditions, hjoins, hkeys]
  rfl

end Renaming

section Fresh

variable {source target t u : String}

theorem renamed_of_sameFold (h : Text.sameFold t source = true) :
    renamed source target t = target :=
  if_pos h

theorem renamed_of_not_sameFold (h : Text.sameFold t source = false) :
    renamed source target t = t :=
  if_neg (by rw [h]; exact Bool.false_ne_true)

/-- A name other than the new one does not name the renamed table afterwards. -/
theorem not_sameFold_renamed (ht : Text.sameFold t target = false) :
    Text.sameFold (renamed source target t) source = false := by
  cases hts : Text.sameFold t source with
  | false => rwa [renamed_of_not_sameFold hts]
  | true =>
      rw [renamed_of_sameFold hts]
      rw [Text.sameFold_iff] at hts
      rwa [Text.sameFold, BEq.comm, ← hts]

/-- Names other than the new one are told apart as before. -/
theorem lower_renamed_eq_iff (ht : Text.sameFold t target = false)
    (hu : Text.sameFold u target = false) :
    Text.lower (renamed source target t) = Text.lower (renamed source target u) ↔
      Text.lower t = Text.lower u := by
  have htu : Text.lower t ≠ Text.lower target := beq_eq_false_iff_ne.1 ht
  have hut : Text.lower u ≠ Text.lower target := beq_eq_false_iff_ne.1 hu
  -- either name may be the one that is replaced
  cases hts : Text.sameFold t source with
  | true =>
      have htsource := Text.sameFold_iff.1 hts
      rw [renamed_of_sameFold hts]
      cases hus : Text.sameFold u source with
      | true =>
          rw [renamed_of_sameFold hus]
          exact iff_of_true rfl (htsource.trans (Text.sameFold_iff.1 hus).symm)
      | false =>
          rw [renamed_of_not_sameFold hus, htsource]
          exact iff_of_false hut.symm (beq_eq_false_iff_ne.1 hus).symm
  | false =>
      rw [renamed_of_not_sameFold hts]
      cases hus : Text.sameFold u source with
      | true =>
          rw [renamed_of_sameFold hus, Text.sameFold_iff.1 hus]
          exact iff_of_false htu (beq_eq_false_iff_ne.1 hts)
      | false => rw [renamed_of_not_sameFold hus]

/-- On the way back a name other than the new one is met again, that of the table in the spelling
of the request. -/
theorem renamed_renamed (ht : Text.sameFold t target = false) :
    renamed target source (renamed source target t) =
      if Text.sameFold t source then source else t := by
  cases hts : Text.sameFold t source with
  | true => rw [renamed_of_sameFold hts, renamed_of_sameFold (Text.sameFold_self target)]; rfl
  | false => rw [renamed_of_not_sameFold hts, renamed_of_not_sameFold ht]; rfl

end Fresh

namespace Query

variable {q : Query} {source target : String}

/-- The names of a query are other than one that it does not have. -/
theorem not_sameFold_of_mem_tableKeys (hfresh : q.hasTable target = false) {t : String}
    (ht : Text.lower t ∈ q.tableKeys) : Text.sameFold t target = false := by
  obtain ⟨u, hu, hut⟩ := List.mem_map.1 ht
  have hother := List.any_eq_false.1 hfresh u hu
  rw [Text.sameFold, hut] at hother
  exact Bool.eq_false_iff.2 hother

/-- To rename a table is faithful.  In a query that passes the check, `target` is a name that no
table has yet; then the renamed query passes it too, its tables are the old ones with the new name
in the place of the old one, no reference names the old one any more, those that did not name it
are as before, as are the subqueries, and to rename back gives the query with `source` in the
place of the spellings of that one name. -/
theorem renameTable_faithful (hvalid : q.validate = .ok ())
    (hnamed : Text.isBlankText target = false) (hfresh : q.hasTable target = false) :
    (q.renameTable source target).validate = .ok () ∧
      (q.renameTable source target).tables =
        q.tables.map (fun t => if Text.sameFold t source then target else t) ∧
      (∀ x ∈ (q.renameTable source target).references,
        Text.sameFold x.2.table source = false) ∧
      (q.renameTable source target).references =
        q.references.map (fun x =>
          if Text.sameFold x.2.table source then (x.1, { x.2 with table := target }) else x) ∧
      (q.renameTable source target).subqueries = q.subqueries ∧
      (q.renameTable source target).renameTable target source =
        q.mapTables (fun t => if Text.sameFold t source then source else t) := by
  have hscoped := (validate_eq_ok_iff q).1 hvalid
  have hother {t : String} (ht : Text.lower t ∈ q.tableKeys) : Text.sameFold t target = false :=
    not_sameFold_of_mem_tableKeys hfresh ht
  have hsourceOther : Text.sameFold q.source target = false := hother List.mem_cons_self
  have hreferencesOther : ∀ x ∈ q.references, Text.sameFold x.2.table target = false :=
    fun x hx => hother (hscoped.references_known x hx)
  simp only [renameTable_eq]
  refine ⟨?_, tables_mapTables _ q, ?_, ?_, subqueries_mapTables _ q, ?_⟩
  · have hsource : Text.isBlankText (renamed source target q.source) = false := by
      rw [renamed]
      split
      · exact hnamed
      · exact hscoped.source_named
    exact (validate_eq_ok_iff _).2 (hscoped.mapTables hsource fun t u ht hu =>
      lower_renamed_eq_iff (hother ht) (hother hu))
  · intro x hx
    rw [references_mapTables] at hx
    obtain ⟨before, hbefore, rfl⟩ := List.mem_map.1 hx
    exact not_sameFold_renamed (hreferencesOther before hbefore)
  · rw [references_mapTables]
    refine List.map_congr_left fun x _ => ?_
    rw [Reference.mapTable, renamed]
    split <;> rfl
  · exact mapTables_mapTables (renamed_renamed hsourceOther) fun x hx =>
      renamed_renamed (hreferencesOther x hx)

/-- The orders of `romanOrders` are named in another case, and become purchases. -/
theorem renameTable_romanOrders :
    (romanOrders.validate = .ok () ∧ Text.isBlankText "purchases" = false ∧
      romanOrders.hasTable "purchases" = false) ∧
      (romanOrders.renameTable "Orders" "purchases").validate = .ok () ∧
      (romanOrders.renameTable "Orders" "purchases").tables = ["purchases", "customers"] ∧
      ((romanOrders.renameTable "Orders" "purchases").renameTable "purchases" "Orders").tables =
        ["Orders", "customers"] := by
  have hvalid := validate_romanOrders
  have hnamed : Text.isBlankText "purchases" = false := by decide
  have hfresh : romanOrders.hasTable "purchases" = false := by decide
  obtain ⟨hstays, htables, -, -, -, hback⟩ :=
    @renameTable_faithful romanOrders "Orders" "purchases" hvalid hnamed hfresh
  refine ⟨⟨hvalid, hnamed, hfresh⟩, hstays, htables.trans rfl, ?_⟩
  rw [hback]
  rfl

end Query
end AskSql
