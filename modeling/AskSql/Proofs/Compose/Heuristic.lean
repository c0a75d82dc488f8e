import AskSql.Compose.Heuristic
import AskSql.Proofs.Compose.JoinTree
import AskSql.Proofs.Schema.Outline

/-!
# Queries from words come about

Each stage in which a query is put together from the words of a question grows the join tree and finds
references to it (`Heuristic.Stage`); what a later stage adds to the tree takes no table away.  In the
end every reference of the query is to a table of the tree, and to a column that the schema has
(`Heuristic.grounded_draft`).

So where the names of the schema are plain the query passes the check of its scope, whatever the
question says (`Heuristic.query_ok`).  The one thing that may be missing is a table to start from.
-/

namespace AskSql
namespace Heuristic

open JoinTree

variable {s : Schema} {base : String} {p : Phrasing} {t t' t'' : JoinTree}

/-- A stage has grown the tree, and found some references to it. -/
structure Stage (s : Schema) (base : String) (t : JoinTree) (found : List Reference)
    (t' : JoinTree) : Prop where
  grown : Grown s base t'
  within : t.Within t'
  grounded : ∀ r ∈ found, Grounded s t' r

theorem Stage.refl (h : Grown s base t) {found : List Reference}
    (hfound : ∀ r ∈ found, Grounded s t r) : Stage s base t found t :=
  ⟨h, .refl t, hfound⟩

theorem Stage.trans {found found' : List Reference} (h : Stage s base t found t')
    (h' : Stage s base t' found' t'') : Stage s base t (found ++ found') t'' where
  grown := h'.grown
  within := h.within.trans h'.within
  grounded := List.forall_mem_append.2
    ⟨fun r hr => (h.grounded r hr).mono h'.within, h'.grounded⟩

section Aggregates

theorem mem_of_summand? {table : Table} {c : Column} (h : summand? table = some c) :
    c ∈ table.columns := by
  obtain hnamed | ⟨-, hmeasure⟩ := (Option.orElse_eq_some _ _ _).1 h
  · obtain ⟨part, -, hpart⟩ := List.exists_of_findSome?_eq_some hnamed
    exact List.mem_of_find?_eq_some hpart
  · exact Table.mem_of_mem_measures (List.mem_of_head? hmeasure)

theorem lineItemColumns?_spec {table : Table} {quantity price : String}
    (h : lineItemColumns? table = some (quantity, price)) :
    ∃ c ∈ table.columns, ∃ d ∈ table.columns, c.name = quantity ∧ d.name = price := by
  obtain ⟨c, hc, hrest⟩ := Option.bind_eq_some_iff.1 h
  obtain ⟨d, hd, hnames⟩ := Option.bind_eq_some_iff.1 hrest
  obtain ⟨hquantity, hprice⟩ := Prod.mk.inj (Option.some.inj hnames)
  exact ⟨c, Table.mem_of_findSome?_column? hc, d, Table.mem_of_findSome?_column? hd, hquantity,
    hprice⟩

theorem mem_of_lineItems? {items : Table} (h : lineItems? s base = some items) :
    items ∈ s.tables := by
  obtain hown | ⟨-, hother⟩ := (Option.orElse_eq_some _ _ _).1 h
  · obtain ⟨hfound, -⟩ := Option.filter_eq_some_iff.1 hown
    exact Schema.mem_of_table? hfound
  · exact List.mem_of_find?_eq_some hother

theorem grounded_star_base (s : Schema) (t : JoinTree) : Grounded s t (.star t.base) where
  there := List.mem_map_of_mem t.base_mem_tables
  written := .inl rfl
  resolves _ := s.resolves_star t.base

theorem grounded_star_root (h : Grown s base t) : Grounded s t (.star t.root) where
  there := h.root_there
  written := by
    rw [h.base_eq]
    exact h.root_written
  resolves _ := s.resolves_star t.root

theorem rowCount_grounded (s : Schema) (t : JoinTree) :
    ∀ r ∈ (rowCount t).references, Grounded s t r :=
  List.forall_mem_singleton.2 (grounded_star_base s t)

theorem columnSum_grounded (s : Schema) (t : JoinTree) (label : Option String) :
    ∀ r ∈ (columnSum s t label).references, Grounded s t r := by
  unfold columnSum
  split
  · next c hfound =>
      obtain ⟨table, htable, hc⟩ := Option.bind_eq_some_iff.1 hfound
      exact List.forall_mem_singleton.2 (grounded_of_base htable (mem_of_summand? hc) none)
  · exact rowCount_grounded s t

theorem itemsSum?_stage (h : Grown s base t) {label : Option String} {a : Aggregate}
    (hsum : itemsSum? s t label = some (a, t')) : Stage s base t a.references t' := by
  obtain ⟨items, hitems, hsum⟩ := Option.bind_eq_some_iff.1 hsum
  obtain ⟨⟨quantity, price⟩, hcolumns, hsum⟩ := Option.bind_eq_some_iff.1 hsum
  obtain ⟨joined, hjoin, hsum⟩ := Option.bind_eq_some_iff.1 hsum
  obtain ⟨rfl, rfl⟩ := Prod.mk.inj (Option.some.inj hsum)
  obtain ⟨hgrown, hwithin, hthere⟩ := h.join? hjoin
  obtain ⟨c, hc, d, hd, rfl, rfl⟩ := lineItemColumns?_spec hcolumns
  have hmem := mem_of_lineItems? hitems
  refine ⟨hgrown, hwithin, ?_⟩
  exact List.forall_mem_cons.2 ⟨grounded_of_mem hthere hmem hc none,
    List.forall_mem_singleton.2 (grounded_of_mem hthere hmem hd none)⟩

theorem sum_stage (h : Grown s base t) :
    Stage s base t (sum s p t).1.references (sum s p t).2 := by
  have hsum : sum s p t =
      (itemsSum? s t (sumLabel? p)).getD (columnSum s t (sumLabel? p), t) := rfl
  rw [hsum]
  cases hitems : itemsSum? s t (sumLabel? p) with
  | none => exact .refl h (columnSum_grounded s t _)
  | some found => exact itemsSum?_stage h hitems

theorem measure?_grounded {r : Reference} (h : measure? s p t = some r) : Grounded s t r := by
  obtain hnamed | ⟨-, hfirst⟩ := (Option.orElse_eq_some _ _ _).1 h
  · obtain ⟨name, hname, table, htable, hfound⟩ := findInTables?_spec hnamed
    obtain ⟨c, hc, rfl⟩ := Option.map_eq_some_iff.1 hfound
    have hmeasure := Table.mem_of_mem_measures (List.mem_of_find?_eq_some hc)
    exact grounded_of_table? hname htable hmeasure none
  · obtain ⟨table, htable, hfound⟩ := Option.bind_eq_some_iff.1 hfirst
    obtain ⟨c, hc, rfl⟩ := Option.map_eq_some_iff.1 hfound
    have hmeasure := Table.mem_of_mem_measures (List.mem_of_head? hc)
    exact grounded_of_table? t.base_mem_tables htable hmeasure none

theorem measured_grounded (s : Schema) (p : Phrasing) (t : JoinTree)
    (function : AggregateFunction) (name : String) :
    ∀ r ∈ (measured s p t function name).references, Grounded s t r := by
  unfold measured
  split
  · next c hfound => exact List.forall_mem_singleton.2 (measure?_grounded hfound)
  · exact rowCount_grounded s t

/-- The references of the aggregate that a question asks for, if it asks for one. -/
def aggregateReferences (a : Option Aggregate) : List Reference :=
  a.toList.flatMap Aggregate.references

theorem aggregate_stage (h : Grown s base t) :
    Stage s base t (aggregateReferences (aggregate s p t).1) (aggregate s p t).2 := by
  have hmeasured (function : AggregateFunction) (name : String) :
      Stage s base t (aggregateReferences (some (measured s p t function name))) t := by
    refine .refl h ?_
    simpa [aggregateReferences] using measured_grounded s p t function name
  unfold aggregate
  split
  · exact hmeasured _ _
  · split
    · refine .refl h ?_
      simpa [aggregateReferences] using rowCount_grounded s t
    · split
      · simpa [aggregateReferences] using sum_stage h
      · split
        · exact hmeasured _ _
        · split
          · exact hmeasured _ _
          · exact .refl h (by simp [aggregateReferences])

end Aggregates

section Groups

theorem columnInScope?_grounded (h : Grown s base t) {name : String} {r : Reference}
    (hfound : columnInScope? s t name = some r) : Grounded s t r := by
  obtain ⟨table, hmem, hfound⟩ := List.exists_of_findSome?_eq_some hfound
  obtain ⟨c, hc, rfl⟩ := Option.map_eq_some_iff.1 hfound
  obtain ⟨found, htable, hcolumn⟩ := Option.bind_eq_some_iff.1 hc
  refine ⟨List.mem_map_of_mem hmem, ?_, fun _ => ?_⟩
  · rw [h.base_eq]
    exact h.written hmem
  · exact Schema.resolves_of_table? htable (Table.mem_of_column? hcolumn) none

theorem normalize_mem_of_hasTable {name : String} (h : t.hasTable name = true) :
    Name.normalize name ∈ t.tables.map Name.normalize := by
  obtain ⟨u, hu, hsame⟩ := List.any_eq_true.1 h
  exact List.mem_map.2 ⟨u, hu, Name.normalize_eq_of_lower_eq (Text.sameFold_iff.1 hsame)⟩

theorem groupByTable?_stage (h : Grown s base t) {table : Table} (htable : table ∈ s.tables)
    {r : Reference} (hfound : groupByTable? s t table = some (r, t')) :
    Stage s base t [r] t' := by
  obtain ⟨label, hlabel, hfound⟩ := Option.bind_eq_some_iff.1 hfound
  have hcolumn := Table.mem_of_labelColumn? hlabel
  dsimp only at hfound
  split at hfound
  · next hthere =>
      obtain ⟨rfl, rfl⟩ := Prod.mk.inj (Option.some.inj hfound)
      exact .refl h (List.forall_mem_singleton.2
        (grounded_of_mem (normalize_mem_of_hasTable hthere) htable hcolumn none))
  · obtain ⟨joined, hjoin, hfound⟩ := Option.bind_eq_some_iff.1 hfound
    obtain ⟨rfl, rfl⟩ := Prod.mk.inj (Option.some.inj hfound)
    obtain ⟨hgrown, hwithin, hthere⟩ := h.join? hjoin
    -- the query starts from the table that it is grouped by
    refine ⟨hgrown.withRoot hthere (Schema.writes_table htable), ⟨hwithin.base_eq,
      hwithin.tables⟩, List.forall_mem_singleton.2 ?_⟩
    exact (grounded_of_mem hthere htable hcolumn none).mono ⟨rfl, List.Subset.refl _⟩

theorem joinedColumn?_stage (h : Grown s base t) {name : String} {tables : List Table}
    (htables : ∀ table ∈ tables, table ∈ s.tables) {r : Reference}
    (hfound : joinedColumn? s t name tables = some (r, t')) : Stage s base t [r] t' := by
  obtain ⟨table, hmem, hfound⟩ := List.exists_of_findSome?_eq_some hfound
  obtain ⟨joined, hjoin, hfound⟩ := Option.bind_eq_some_iff.1 hfound
  obtain ⟨c, hc, hfound⟩ := Option.bind_eq_some_iff.1 hfound
  obtain ⟨rfl, rfl⟩ := Prod.mk.inj (Option.some.inj hfound)
  obtain ⟨hgrown, hwithin, hthere⟩ := h.join? hjoin
  refine ⟨hgrown, hwithin, List.forall_mem_singleton.2 ?_⟩
  exact grounded_of_mem hthere (htables table hmem) (Table.mem_of_column? hc) none

theorem groupTarget?_stage (h : Grown s base t) {word : String} {r : Reference}
    (hfound : groupTarget? s t word = some (r, t')) : Stage s base t [r] t' := by
  unfold groupTarget? at hfound
  split at hfound
  · obtain ⟨c, hc, heq⟩ := Option.map_eq_some_iff.1 hfound
    obtain ⟨rfl, rfl⟩ := Prod.mk.inj heq
    exact .refl h (List.forall_mem_singleton.2 (dateColumn?_grounded hc))
  · split at hfound
    · next c hc =>
        obtain ⟨rfl, rfl⟩ := Prod.mk.inj (Option.some.inj hfound)
        exact .refl h (List.forall_mem_singleton.2 (columnInScope?_grounded h hc))
    · split at hfound
      · next table htable =>
          exact groupByTable?_stage h (Schema.mem_of_findTable? htable) hfound
      · exact joinedColumn?_stage h (fun _ => Schema.mem_of_mem_tablesWithColumn) hfound

/-- One phrase of grouping more. -/
theorem groupStep_stage {columns : List Reference} (h : Stage s base t columns t')
    (phrase : String × Option String) :
    Stage s base t (groupStep s (columns, t') phrase).1 (groupStep s (columns, t') phrase).2 := by
  obtain ⟨first, second⟩ := phrase
  simp only [groupStep]
  split
  · next c joined hfound =>
      have hstage : Stage s base t' [c] joined := by
        obtain htwo | ⟨-, hone⟩ := (Option.orElse_eq_some _ _ _).1 hfound
        · obtain ⟨word, -, htwo⟩ := Option.bind_eq_some_iff.1 htwo
          exact groupTarget?_stage h.grown htwo
        · exact groupTarget?_stage h.grown hone
      have hboth := h.trans hstage
      dsimp only
      split
      · exact ⟨hboth.grown, hboth.within, fun r hr =>
          hboth.grounded r (List.mem_append_left _ hr)⟩
      · exact hboth
  · exact h

/-- All phrases of grouping, one after the other. -/
theorem grouping_stage (h : Grown s base t) :
    Stage s base t (grouping s p t).1 (grouping s p t).2 := by
  have hfold (phrases : List (String × Option String)) :
      ∀ acc, Stage s base t acc.1 acc.2 →
        Stage s base t (phrases.foldl (groupStep s) acc).1
          (phrases.foldl (groupStep s) acc).2 := by
    induction phrases with
    | nil => exact fun _ hacc => hacc
    | cons phrase rest ih => exact fun acc hacc => ih _ (groupStep_stage hacc phrase)
  exact hfold p.groupings ([], t) (.refl h (by simp))

end Groups

section Queries

/-- The condition compares with no query, and all its references are grounded. -/
abbrev GroundedCondition (s : Schema) (t : JoinTree) (c : Condition) : Prop :=
  c.Mentions (Grounded s t) fun _ => False

theorem grounded_compare {c : Condition} {r : Reference} (hrefs : c.references = [r])
    (hr : Grounded s t r) (hplain : ∀ sub, c.rhs ≠ .subquery sub) : GroundedCondition s t c where
  references := hrefs ▸ List.forall_mem_singleton.2 hr
  subquery := hplain

theorem recent?_grounded {date : Option Reference} {days : Option Nat} {c : Condition}
    (hdate : ∀ r ∈ date, Grounded s t r) (h : recent? date days = some c) :
    GroundedCondition s t c := by
  obtain ⟨r, hr, h⟩ := Option.bind_eq_some_iff.1 h
  obtain ⟨n, -, h⟩ := Option.bind_eq_some_iff.1 h
  obtain rfl := Option.some.inj h
  exact grounded_compare rfl (hdate r hr) nofun

theorem inMonth?_grounded {date : Option Reference} {month : Option Nat} {c : Condition}
    (hdate : ∀ r ∈ date, Grounded s t r) (h : inMonth? date month = some c) :
    GroundedCondition s t c := by
  obtain ⟨r, hr, h⟩ := Option.bind_eq_some_iff.1 h
  obtain ⟨n, -, h⟩ := Option.bind_eq_some_iff.1 h
  obtain rfl := Option.some.inj h
  exact grounded_compare rfl (hdate r hr) nofun

theorem hasStatus?_grounded {c : Condition} (h : hasStatus? s p t = some c) :
    GroundedCondition s t c := by
  obtain ⟨status, -, h⟩ := Option.bind_eq_some_iff.1 h
  obtain ⟨r, hr, h⟩ := Option.bind_eq_some_iff.1 h
  obtain rfl := Option.some.inj h
  obtain ⟨name, hname, table, htable, hfound⟩ := findInTables?_spec hr
  obtain ⟨column, hcolumn, rfl⟩ := Option.map_eq_some_iff.1 hfound
  exact grounded_compare rfl
    (grounded_of_table? hname htable (Table.mem_of_column? hcolumn) none) nofun

theorem filters_grounded (s : Schema) (p : Phrasing) (t : JoinTree) :
    ∀ c ∈ filters s p t, GroundedCondition s t c := by
  have hdate : ∀ r ∈ t.dateColumn? s, Grounded s t r := fun r hr => dateColumn?_grounded hr
  simp only [filters, List.forall_mem_append, Option.mem_toList]
  exact ⟨⟨fun c hc => recent?_grounded hdate hc, fun c hc => inMonth?_grounded hdate hc⟩,
    fun c hc => hasStatus?_grounded hc⟩

theorem namedColumns_grounded (s : Schema) (p : Phrasing) (t : JoinTree) :
    ∀ i ∈ namedColumns s p t, ∀ r ∈ i.references, Grounded s t r := by
  intro i hi
  unfold namedColumns at hi
  split at hi
  · cases hi
  · next table htable =>
      obtain ⟨c, hc, rfl⟩ := List.mem_map.1 hi
      exact List.forall_mem_singleton.2 (grounded_of_base htable (List.mem_filter.1 hc).1 none)

theorem items_grounded (h : Grown s base t) {aggregate : Option Aggregate}
    {groupBy : List Reference}
    (haggregate : ∀ r ∈ aggregateReferences aggregate, Grounded s t r)
    (hgroups : ∀ r ∈ groupBy, Grounded s t r) :
    ∀ i ∈ items s p t aggregate groupBy, ∀ r ∈ i.references, Grounded s t r := by
  have hcolumns : ∀ i ∈ groupBy.map Item.column, ∀ r ∈ i.references, Grounded s t r := by
    intro i hi
    obtain ⟨c, hc, rfl⟩ := List.mem_map.1 hi
    exact List.forall_mem_singleton.2 (hgroups c hc)
  unfold items
  -- an aggregate with its groups, no groups at all, or groups with the number of rows
  split
  · next a =>
      have ha : ∀ r ∈ a.references, Grounded s t r := by
        simpa [aggregateReferences] using haggregate
      exact List.forall_mem_append.2 ⟨hcolumns, List.forall_mem_singleton.2 ha⟩
  · split
    · dsimp only
      split
      · exact List.forall_mem_singleton.2 (List.forall_mem_singleton.2 (grounded_star_root h))
      · exact namedColumns_grounded s p t
    · exact List.forall_mem_append.2
        ⟨hcolumns, List.forall_mem_singleton.2 (rowCount_grounded s t)⟩

/-- The query over a grown tree: it starts from the root of the tree, and apart from those of its
joins all its references are grounded. -/
structure Composed (s : Schema) (t : JoinTree) (q : Query) : Prop where
  source_eq : q.source = t.root
  items : ∀ i ∈ q.items, ∀ r ∈ i.references, Grounded s t r
  filters : ∀ c ∈ q.filters, GroundedCondition s t c
  groupBy : ∀ r ∈ q.groupBy, Grounded s t r
  having_nil : q.having = []
  orderBy : ∀ k ∈ q.orderBy, ∀ r ∈ k.item.references, Grounded s t r

/-- Taking a portion orders the result by what is there already. -/
theorem Composed.takePortion {q : Query} (h : Composed s t q) (portion : Phrasing.Portion) :
    Composed s t (takePortion s t.base q portion) := by
  cases portion with
  | all => exact h
  | best count direction =>
      refine ⟨h.source_eq, h.items, h.filters, h.groupBy, h.having_nil, fun k hk => ?_⟩
      obtain ⟨a, ha, rfl⟩ := Option.map_eq_some_iff.1 (Option.mem_toList.1 hk)
      obtain ⟨i, hi, hagg⟩ := List.mem_filterMap.1 (List.mem_of_head? ha)
      cases i with
      | column c => cases hagg
      | aggregate b =>
          obtain rfl := Option.some.inj hagg
          exact h.items _ hi
  | newest count =>
      refine ⟨h.source_eq, h.items, h.filters, h.groupBy, h.having_nil, fun k hk => ?_⟩
      obtain ⟨c, hc, rfl⟩ := Option.map_eq_some_iff.1 (Option.mem_toList.1 hk)
      obtain ⟨table, htable, hdate⟩ := Option.bind_eq_some_iff.1 hc
      exact List.forall_mem_singleton.2
        (grounded_of_base htable (Table.mem_of_dateColumn? hdate) none)

/-- A query over a grown tree passes the check of its scope. -/
theorem Composed.validate {q : Query} (h : Composed s t q) (hgrown : Grown s base t)
    (hplain : s.HasPlainNames) (hbase : Name.IsPlain base)
    (hjoins : t.joinsFrom t.root = .ok q.joins) : q.validate = .ok () := by
  obtain ⟨joins, hjoins', hok, hkeys⟩ := hgrown.joinsFrom hplain hbase
  obtain rfl := Except.ok.inj (hjoins'.symm.trans hjoins)
  have hbare : ∀ j ∈ q.joins, j.conditions = [] := fun j hj =>
    (hgrown.along.mem_joinsFrom hjoins hj).2
  have hroot : Name.IsPlain t.root := by
    obtain heq | hwritten := hgrown.root_written
    · rwa [heq]
    · exact hplain _ hwritten
  rw [← h.source_eq] at hok
  obtain ⟨hscope, hall⟩ := (Query.joinScope_joinSides_iff q _).1 hok
  have hknown : ∀ r, Grounded s t r → r.tableKey ∈ q.tableKeys := by
    intro r hr
    rw [← hall, h.source_eq]
    exact hkeys r hr
  have hright : ∀ j ∈ q.joins, j.right.tableKey ∈ q.tableKeys := fun j hj =>
    Query.right_mem_tableKeys hj
  have hleft : ∀ j ∈ q.joins, j.left.tableKey ∈ q.tableKeys := by
    intro j hj
    rw [← hall]
    exact left_mem_of_joinScope hok hj
  -- each clause refers to tables that the joins bring in
  have hmentions : q.Mentions (fun r => r.tableKey ∈ q.tableKeys)
      fun sub => sub.validate = .ok () := {
    items := fun i hi r hr => hknown r (h.items i hi r hr)
    joins := fun j hj => ⟨hleft j hj, hright j hj, by simp [hbare j hj]⟩
    filters := fun c hc => (h.filters c hc).mono hknown fun _ => False.elim
    groupBy := fun r hr => hknown r (h.groupBy r hr)
    having := by simp [h.having_nil]
    orderBy := fun k hk r hr => hknown r (h.orderBy k hk r hr) }
  obtain ⟨hreferences, hsubqueries⟩ := Query.mentions_iff.1 hmentions
  exact (Query.validate_eq_ok_iff q).2 ⟨h.source_eq ▸ hroot.named, fun i j hj =>
    (hscope i j hj).1, fun i j hj => (hscope i j hj).2, hreferences, hsubqueries⟩

/-- The join tree for a question about a base table. -/
def treeOf (s : Schema) (p : Phrasing) (base : String) : JoinTree :=
  (grouping s p (aggregate s p (.ofBase base)).2).2

/-- The query for a question about a base table, before its scope is checked. -/
def draft (s : Schema) (p : Phrasing) (base : String) (joins : List Join) : Query :=
  let (aggregate, t) := aggregate s p (.ofBase base)
  let (groupBy, t) := grouping s p t
  takePortion s t.base
    { source := t.root, items := items s p t aggregate groupBy, joins,
      filters := filters s p t, groupBy } p.portion

theorem query_eq (s : Schema) (default : Option String) (text : String) :
    query s default text = (do
      let p := Phrasing.ofText text
      let base ← baseTable s default p.words
      let t := treeOf s p base
      let joins ← t.joinsFrom t.root
      let q := draft s p base joins
      q.validate
      return q) := by
  unfold query treeOf draft
  dsimp only

theorem joins_takePortion (q : Query) (portion : Phrasing.Portion) :
    (takePortion s base q portion).joins = q.joins := by
  cases portion with
  | all => rfl
  | best count direction => rfl
  | newest count => rfl

theorem joins_draft (s : Schema) (p : Phrasing) (base : String) (joins : List Join) :
    (draft s p base joins).joins = joins :=
  joins_takePortion _ _

/-- The tree of a question, and all that its query refers to. -/
theorem composed_draft (s : Schema) (p : Phrasing) (base : String) (joins : List Join) :
    Grown s base (treeOf s p base) ∧
      Composed s (treeOf s p base) (draft s p base joins) := by
  have haggregate : Stage s base (.ofBase base) _ _ := aggregate_stage (p := p) (grown_ofBase s base)
  have hgroups := grouping_stage (p := p) haggregate.grown
  have hboth := haggregate.trans hgroups
  obtain ⟨hreferences, hcolumns⟩ := List.forall_mem_append.1 hboth.grounded
  refine ⟨hboth.grown, Composed.takePortion ⟨rfl, ?_, ?_, hcolumns, rfl, ?_⟩ p.portion⟩
  · exact items_grounded hboth.grown hreferences hcolumns
  · exact filters_grounded s p _
  · exact fun k hk => absurd hk List.not_mem_nil

/-- What comes of a question is the draft for its base table, over a tree that can be turned to its
root. -/
theorem query_eq_ok {default : Option String} {text : String} {q : Query}
    (h : query s default text = .ok q) :
    ∃ base, baseTable s default (Phrasing.ofText text).words = .ok base ∧
      (treeOf s (Phrasing.ofText text) base).joinsFrom
        (treeOf s (Phrasing.ofText text) base).root = .ok q.joins ∧
      q = draft s (Phrasing.ofText text) base q.joins := by
  rw [query_eq] at h
  obtain ⟨base, hbase, h⟩ := (Failure.bind_eq_ok_iff _ _ _).1 h
  obtain ⟨joins, hjoins, h⟩ := (Failure.bind_eq_ok_iff _ _ _).1 h
  obtain ⟨-, hq⟩ := (Failure.check_eq_ok_iff _ _ _).1 h
  obtain rfl := Except.ok.inj hq
  rw [joins_draft]
  exact ⟨base, hbase, hjoins, rfl⟩

/-- Where no two tables have the same name, the query for a question is drawn from the schema. -/
theorem drawnFrom_of_query (hdistinct : s.HasDistinctNames) {default : Option String}
    {text : String} {q : Query} (h : query s default text = .ok q) : q.DrawnFrom s := by
  obtain ⟨base, -, hjoins, hq⟩ := query_eq_ok h
  obtain ⟨hgrown, hcomposed⟩ := composed_draft s (Phrasing.ofText text) base q.joins
  rw [← hq] at hcomposed
  exact {
    items := fun i hi r hr => (hcomposed.items i hi r hr).resolves hdistinct
    joins := fun j hj => hgrown.along.mem_joinsFrom hjoins hj
    filters := fun c hc => (hcomposed.filters c hc).mono (fun r hr => hr.resolves hdistinct)
      fun _ => id
    groupBy := fun r hr => (hcomposed.groupBy r hr).resolves hdistinct
    having_nil := hcomposed.having_nil
    orderBy := fun k hk r hr => (hcomposed.orderBy k hk r hr).resolves hdistinct }

section Bases

variable {default : Option String} {words : List String}

theorem mem_of_hintedTable? {table : Table} (h : hintedTable? s words = some table) :
    table ∈ s.tables := by
  obtain ⟨w, -, hw⟩ := List.exists_of_findSome?_eq_some h
  obtain ⟨names, -, hnames⟩ := Option.bind_eq_some_iff.1 hw
  obtain ⟨name, -, hfound⟩ := List.exists_of_findSome?_eq_some hnames
  exact Schema.mem_of_findTable? hfound

theorem mem_of_namedTable? {table : Table} (h : namedTable? s words = some table) :
    table ∈ s.tables := by
  obtain htwo | ⟨-, hone⟩ := (Option.orElse_eq_some _ _ _).1 h
  · obtain ⟨w, -, hw⟩ := List.exists_of_findSome?_eq_some htwo
    exact Schema.mem_of_findTable? hw
  · obtain ⟨w, -, hw⟩ := List.exists_of_findSome?_eq_some hone
    exact Schema.mem_of_findTable? hw

/-- The table to start from is one of the schema, or the default one. -/
theorem baseTable_cases (s : Schema) (default : Option String) (words : List String) :
    (∃ table ∈ s.tables, baseTable s default words = .ok table.name) ∨
      (∃ name ∈ default, baseTable s default words = .ok (s.tableName name)) ∨
        s.tables = [] ∧ default = none ∧ baseTable s default words = .error noTable := by
  unfold baseTable
  dsimp only
  cases hmeant : hintedTable? s (candidates words) <|> namedTable? s (candidates words) with
  | some table =>
      refine .inl ⟨table, ?_, rfl⟩
      obtain hhint | ⟨-, hname⟩ := (Option.orElse_eq_some _ _ _).1 hmeant
      · exact mem_of_hintedTable? hhint
      · exact mem_of_namedTable? hname
  | none =>
      cases default with
      | some name => exact .inr (.inl ⟨name, rfl, rfl⟩)
      | none =>
          cases htables : s.tables with
          | nil => exact .inr (.inr ⟨rfl, rfl, rfl⟩)
          | cons table rest => exact .inl ⟨table, List.mem_cons_self, rfl⟩

end Bases

/-- Over a schema of plain names every question has a query that passes the check of its scope, if
there is a table to start from, and only a missing table is a reason for having none. -/
theorem query_composes (s : Schema) (hplain : s.HasPlainNames) (default : Option String)
    (hdefault : ∀ name ∈ default, Name.IsPlain name) (text : String) :
    (s.tables = [] ∧ default = none → query s default text = .error noTable) ∧
      (¬(s.tables = [] ∧ default = none) →
        ∃ q, query s default text = .ok q ∧ q.validate = .ok ()) := by
  have hquery {base : String} (hplainBase : Name.IsPlain base)
      (hbase : baseTable s default (Phrasing.ofText text).words = .ok base) :
      ∃ q, query s default text = .ok q ∧ q.validate = .ok () := by
    obtain ⟨hgrown, -⟩ := composed_draft s (Phrasing.ofText text) base []
    obtain ⟨joins, hjoins, -⟩ := hgrown.joinsFrom hplain hplainBase
    obtain ⟨-, hcomposed⟩ := composed_draft s (Phrasing.ofText text) base joins
    have hvalid : (draft s (Phrasing.ofText text) base joins).validate = .ok () :=
      hcomposed.validate hgrown hplain hplainBase (by rwa [joins_draft])
    refine ⟨_, ?_, hvalid⟩
    rw [query_eq]
    simp only [hbase, hjoins, hvalid, bind, Except.bind, pure, Except.pure]
  obtain ⟨table, htable, hbase⟩ | ⟨name, hname, hbase⟩ | ⟨htables, hnone, hbase⟩ :=
    baseTable_cases s default (Phrasing.ofText text).words
  · refine ⟨fun hempty => ?_, fun _ => hquery (hplain _ (Schema.writes_table htable)) hbase⟩
    rw [hempty.1] at htable
    cases htable
  · refine ⟨fun hempty => ?_, fun _ => hquery ?_ hbase⟩
    · rw [hempty.2] at hname
      cases hname
    · rw [Schema.tableName]
      cases htable : s.table? name with
      | none => exact hdefault name hname
      | some t => exact hplain _ (Schema.writes_table (Schema.mem_of_table? htable))
  · refine ⟨fun _ => ?_, fun hmissing => absurd ⟨htables, hnone⟩ hmissing⟩
    rw [query_eq]
    simp only [hbase, bind, Except.bind]

/-- Customers and their orders. -/
def shop : Schema where
  tables := [
    { name := "customers",
      columns := [{ name := "id", type := .integer, primaryKey := true },
                  { name := "city", type := .text }] },
    { name := "Orders",
      columns := [{ name := "id", type := .integer, primaryKey := true },
                  { name := "customer_id", type := .integer },
                  { name := "total", type := .float }] }]
  relationships := [⟨⟨"orders", "customer_id"⟩, ⟨"customers", "id"⟩, .manyToOne⟩]

theorem hasPlainNames_shop : shop.HasPlainNames := by
  have htables : ∀ t ∈ shop.tables, Name.IsPlain t.name := by
    simp only [shop, List.forall_mem_cons]
    exact ⟨⟨by decide, by decide⟩, ⟨by decide, by decide⟩, fun _ h => absurd h List.not_mem_nil⟩
  have hends : ∀ r ∈ shop.relationships,
      Name.IsPlain r.source.table ∧ Name.IsPlain r.target.table :=
    List.forall_mem_singleton.2 ⟨⟨by decide, by decide⟩, ⟨by decide, by decide⟩⟩
  rintro name (⟨t, ht, rfl⟩ | ⟨r, hr, rfl | rfl⟩)
  · exact htables t ht
  · exact (hends r hr).1
  · exact (hends r hr).2

/-- A sum by a column of another table: the tree grows from the orders, and nothing is missing. -/
theorem query_composes_shop :
    shop.HasPlainNames ∧ ¬(shop.tables = [] ∧ some "Orders" = none) ∧
      ∃ q, query shop (some "Orders") "total revenue by city" = .ok q ∧ q.validate = .ok () ∧
        q.groupBy = [⟨"customers", "city", none⟩] := by
  have hdefault : ∀ name ∈ some "Orders", Name.IsPlain name := by
    rintro name hname
    obtain rfl := Option.some.inj hname
    exact ⟨by decide, by decide⟩
  have hpresent : ¬(shop.tables = [] ∧ some "Orders" = none) := fun h => nomatch h.2
  obtain ⟨-, hcomposes⟩ :=
    query_composes shop hasPlainNames_shop (some "Orders") hdefault "total revenue by city"
  obtain ⟨q, hq, hvalid⟩ := hcomposes hpresent
  have hgroups : ((query shop (some "Orders") "total revenue by city").map fun q =>
      decide (q.groupBy = [⟨"customers", "city", none⟩])) = .ok true := by decide +kernel
  obtain ⟨q', hq', hcity⟩ := (Failure.map_eq_ok_iff _ _ _).1 hgroups
  obtain rfl := Except.ok.inj (hq.symm.trans hq')
  exact ⟨hasPlainNames_shop, hpresent, q, hq, hvalid, of_decide_eq_true hcity⟩

end Queries

end Heuristic
end AskSql
