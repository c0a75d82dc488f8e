import AskSql.Compose.Assembly
import AskSql.Proofs.Compose.Heuristic

/-!
# Queries are drawn from the schema

Whatever the words or the components of a question are, the query that is put together refers to
columns of the schema alone, and joins along its relationships (`Query.DrawnFrom`): a word of the
question is looked up, and what is found is written down.  This rests on names that find their own
table.  In a schema where two tables have the same name a column may be taken from the second table
and looked up in the first one (`Schema.drawnFrom_twinOrders`); such a schema cannot be put together
by adding tables, which is how a schema is read from a text (`Schema.hasDistinctNames_ofText`).
-/

namespace AskSql

/-- What changes a member of a list leaves the others as they are. -/
theorem mem_of_mem_updateFirst {α : Type} {accepts : α → Bool} {f : α → α} {xs ys : List α}
    (h : updateFirst accepts f xs = some ys) {y : α} (hy : y ∈ ys) : ∃ x ∈ xs, y = x ∨ y = f x := by
  obtain ⟨before, x, after, rfl, rfl⟩ := updateFirst_eq_some h
  obtain hy | hy := List.mem_append.1 hy
  · exact ⟨y, List.mem_append_left _ hy, .inl rfl⟩
  · obtain rfl | hy := List.mem_cons.1 hy
    · exact ⟨x, List.mem_append_right _ List.mem_cons_self, .inr rfl⟩
    · exact ⟨y, List.mem_append_right _ (List.mem_cons_of_mem _ hy), .inl rfl⟩

variable {s : Schema} {t t' : JoinTree}

namespace JoinTree.Along

theorem join? (h : t.Along s) {table : String} (hjoin : t.join? s table = some t') :
    t'.Along s := by
  obtain ⟨path, hpath, rfl⟩ := Option.map_eq_some_iff.1 hjoin
  obtain ⟨hleads, -⟩ := Schema.leads_joinPath? hpath
  refine List.forall_mem_append.2 ⟨h, fun j hj => ?_⟩
  obtain ⟨hop, hhop, rfl⟩ := List.mem_map.1 hj
  exact ⟨(hleads.isHop hop hhop).connects, rfl⟩

theorem join (h : t.Along s) (table : String) : (t.join s table).Along s := by
  rw [JoinTree.join]
  cases hjoin : t.join? s table with
  | none => exact h
  | some joined => exact h.join? hjoin

theorem keepUnmatched (h : t.Along s) (table : String) : (t.keepUnmatched table).Along s := by
  intro j hj
  simp only [JoinTree.keepUnmatched] at hj
  cases hupdate : updateFirst (fun j => Text.sameFold j.table table)
      (fun j => { j with kind := .left }) t.hops with
  | none =>
      rw [hupdate] at hj
      exact h j hj
  | some hops =>
      rw [hupdate] at hj
      obtain ⟨k, hk, rfl | rfl⟩ := mem_of_mem_updateFirst hupdate hj
      · exact h _ hk
      · exact h k hk

theorem joinPart (h : t.Along s) (part : JoinPart) : (t.joinPart s part).Along s := by
  unfold JoinTree.joinPart
  dsimp only
  split
  · exact ((h.join _).join _).keepUnmatched _
  · exact (h.join _).join _

theorem joinParts (h : t.Along s) (parts : List JoinPart) :
    (parts.foldl (JoinTree.joinPart s) t).Along s := by
  induction parts generalizing t with
  | nil => exact h
  | cons part rest ih => exact ih (h.joinPart part)

/-- What is collected on the way has the property that each single result has. -/
theorem collect {α β : Type} {P : β → Prop} {f : JoinTree → α → Joined (Option β)}
    (hf : ∀ t x, t.Along s → (f t x).2.Along s ∧ ∀ y ∈ (f t x).1, P y) (h : t.Along s)
    (xs : List α) :
    (JoinTree.collect f t xs).2.Along s ∧ ∀ y ∈ (JoinTree.collect f t xs).1, P y := by
  induction xs generalizing t with
  | nil => exact ⟨h, fun y hy => absurd hy List.not_mem_nil⟩
  | cons x xs ih =>
      obtain ⟨halong, hfound⟩ := hf t x h
      obtain ⟨hrest, hall⟩ := ih halong
      refine ⟨hrest, List.forall_mem_append.2 ⟨fun y hy => ?_, hall⟩⟩
      exact hfound y (Option.mem_toList.1 hy)

/-- A result that may be missing. -/
theorem attempt {α : Type} {P : α → Prop} {result : Option (Joined α)} (h : t.Along s)
    (hresult : ∀ x t', result = some (x, t') → t'.Along s ∧ P x) :
    (t.attempt result).2.Along s ∧ ∀ x ∈ (t.attempt result).1, P x := by
  unfold JoinTree.attempt
  split
  · next x joined =>
      obtain ⟨halong, hx⟩ := hresult x joined rfl
      refine ⟨halong, fun y hy => ?_⟩
      rwa [← Option.some.inj hy]
  · exact ⟨h, fun y hy => nomatch hy⟩

end JoinTree.Along

section Lookups

theorem resolves_of_column? {table column : String} {c : Column}
    (h : s.column? table column = some c) (label : Option String) :
    s.Resolves ⟨table, c.name, label⟩ := by
  obtain ⟨found, htable, hcolumn⟩ := Option.bind_eq_some_iff.1 h
  exact Schema.resolves_of_table? htable (Table.mem_of_column? hcolumn) label

theorem resolves_of_dateColumn? {r : Reference} (h : t.dateColumn? s = some r) : s.Resolves r := by
  obtain ⟨name, hname, table, htable, hfound⟩ := JoinTree.findInTables?_spec h
  obtain ⟨c, hc, rfl⟩ := Option.map_eq_some_iff.1 hfound
  exact Schema.resolves_of_table? (Schema.table?_name htable) (Table.mem_of_dateColumn? hc) none

variable (hdistinct : s.HasDistinctNames)
include hdistinct

theorem resolveColumn?_spec (h : t.Along s) {column : String} {r : Reference}
    (hfound : Mention.resolveColumn? s t column = some (r, t')) : t'.Along s ∧ s.Resolves r := by
  obtain hhere | ⟨-, hjoined⟩ := (Option.orElse_eq_some _ _ _).1 hfound
  · obtain ⟨table, -, hcolumn⟩ := List.exists_of_findSome?_eq_some hhere
    obtain ⟨c, hc, heq⟩ := Option.map_eq_some_iff.1 hcolumn
    obtain ⟨rfl, rfl⟩ := Prod.mk.inj heq
    exact ⟨h, resolves_of_column? hc none⟩
  · obtain ⟨table, hmem, hjoined⟩ := List.exists_of_findSome?_eq_some hjoined
    obtain ⟨joined, hjoin, hcolumn⟩ := Option.bind_eq_some_iff.1 hjoined
    obtain ⟨c, hc, heq⟩ := Option.bind_eq_some_iff.1 hcolumn
    obtain ⟨rfl, rfl⟩ := Prod.mk.inj (Option.some.inj heq)
    have htable := Schema.table?_of_mem hdistinct (Schema.mem_of_mem_tablesWithColumn hmem)
    exact ⟨h.join? hjoin, Schema.resolves_of_table? htable (Table.mem_of_column? hc) none⟩

theorem resolve?_spec (h : t.Along s) {m : Mention} {r : Reference}
    (hfound : m.resolve? s t = some (r, t')) : t'.Along s ∧ s.Resolves r := by
  unfold Mention.resolve? at hfound
  split at hfound
  · next name _ _ =>
      obtain ⟨table, htable, hfound⟩ := Option.bind_eq_some_iff.1 hfound
      obtain ⟨label, hlabel, hfound⟩ := Option.bind_eq_some_iff.1 hfound
      obtain ⟨joined, hjoin, hfound⟩ := Option.bind_eq_some_iff.1 hfound
      obtain ⟨rfl, rfl⟩ := Prod.mk.inj (Option.some.inj hfound)
      exact ⟨h.join? hjoin, Schema.resolves_of_table? (Schema.table?_name htable)
        (Table.mem_of_labelColumn? hlabel) none⟩
  · next column table _ _ =>
      obtain ⟨c, hc, hfound⟩ := Option.bind_eq_some_iff.1 hfound
      obtain ⟨joined, hjoin, hfound⟩ := Option.bind_eq_some_iff.1 hfound
      obtain ⟨rfl, rfl⟩ := Prod.mk.inj (Option.some.inj hfound)
      exact ⟨h.join? hjoin, resolves_of_column? hc none⟩
  · exact resolveColumn?_spec hdistinct h hfound
  · cases hfound

theorem resolve_spec (t : JoinTree) (m : Mention) (h : t.Along s) :
    (m.resolve s t).2.Along s ∧ ∀ r ∈ (m.resolve s t).1, s.Resolves r :=
  h.attempt fun _ _ hfound => resolve?_spec hdistinct h hfound

/-- The references of an aggregate that is mentioned. -/
theorem aggregation_spec (t : JoinTree) (part : AggregationPart) (h : t.Along s) :
    (part.resolve s t).2.Along s ∧
      ∀ a ∈ (part.resolve s t).1, ∀ r ∈ a.references, s.Resolves r := by
  refine h.attempt fun a t' hfound => ?_
  obtain ⟨function, -, hfound⟩ := Option.bind_eq_some_iff.1 hfound
  dsimp only at hfound
  split at hfound
  · split at hfound
    · obtain ⟨rfl, rfl⟩ := Prod.mk.inj (Option.some.inj hfound)
      exact ⟨h.join _, List.forall_mem_singleton.2 (s.resolves_star _)⟩
    · obtain ⟨table, htable, hfound⟩ := Option.bind_eq_some_iff.1 hfound
      obtain ⟨measure, hmeasure, hfound⟩ := Option.bind_eq_some_iff.1 hfound
      obtain ⟨rfl, rfl⟩ := Prod.mk.inj (Option.some.inj hfound)
      have hmem := Table.mem_of_mem_measures (List.mem_of_head? hmeasure)
      exact ⟨h.join _, List.forall_mem_singleton.2 (Schema.resolves_of_table? htable hmem none)⟩
  · obtain ⟨⟨column, joined⟩, hcolumn, hfound⟩ := Option.bind_eq_some_iff.1 hfound
    obtain ⟨rfl, rfl⟩ := Prod.mk.inj (Option.some.inj hfound)
    obtain ⟨halong, hresolves⟩ := resolve?_spec hdistinct h hcolumn
    exact ⟨halong, List.forall_mem_singleton.2 hresolves⟩

end Lookups

section Conditions

/-- The condition refers to columns of the schema alone, and to no query. -/
abbrev Condition.DrawnFrom (s : Schema) (c : Condition) : Prop :=
  c.Mentions s.Resolves fun _ => False

/-- The right side is no column and no query. -/
def Comparand.IsPlain : Comparand → Prop
  | .column _ | .subquery _ => False
  | _ => True

theorem drawnFrom_of_isPlain {column : Reference} (h : s.Resolves column) (op : Comparison)
    {rhs : Comparand} (hrhs : rhs.IsPlain) :
    Condition.DrawnFrom s ⟨.column column, op, rhs⟩ := by
  cases rhs with
  | column r => cases hrhs
  | subquery q => cases hrhs
  | _ => exact ⟨List.forall_mem_singleton.2 h, nofun⟩

theorem drawnFrom_of_columns {column other : Reference} (h : s.Resolves column)
    (hother : s.Resolves other) (op : Comparison) :
    Condition.DrawnFrom s ⟨.column column, op, .column other⟩ :=
  ⟨List.forall_mem_cons.2 ⟨h, List.forall_mem_singleton.2 hother⟩, nofun⟩

theorem isPlain_of_comparand? {part : ConditionPart} {op : Comparison} {value : String}
    {kind : EntityKind} {rhs : Comparand} (h : part.comparand? op value kind = some rhs) :
    rhs.IsPlain := by
  unfold ConditionPart.comparand? at h
  split at h
  · obtain ⟨high, -, rfl⟩ := Option.map_eq_some_iff.1 h
    trivial
  · obtain rfl := Option.some.inj h
    trivial
  · obtain rfl := Option.some.inj h
    trivial
  · obtain rfl := Option.some.inj h
    trivial

theorem timeConditions_spec (s : Schema) (t : JoinTree) (c : Components) :
    ∀ x ∈ c.timeConditions s t, Condition.DrawnFrom s x := by
  intro x hx
  unfold Components.timeConditions at hx
  split at hx
  · cases hx
  · next date hdate =>
      have hresolves := resolves_of_dateColumn? hdate
      obtain hx | hx := List.mem_append.1 hx
      · obtain ⟨days, -, rfl⟩ := Option.map_eq_some_iff.1 (Option.mem_toList.1 hx)
        exact ⟨List.forall_mem_singleton.2 hresolves, nofun⟩
      · obtain ⟨month, -, rfl⟩ := Option.map_eq_some_iff.1 (Option.mem_toList.1 hx)
        exact ⟨List.forall_mem_singleton.2 hresolves, nofun⟩

theorem merge?_spec {c next merged : Condition} (hc : Condition.DrawnFrom s c)
    (h : c.merge? next = some merged) : Condition.DrawnFrom s merged := by
  have hlhs : ∀ r ∈ c.lhs.references, s.Resolves r := fun r hr =>
    hc.references r (Condition.mem_references_of_lhs hr)
  unfold Condition.merge? at h
  split at h
  · obtain ⟨value, -, rfl⟩ := Option.map_eq_some_iff.1 h
    unfold Condition.withAlternative
    split
    · exact ⟨hlhs, nofun⟩
    · exact ⟨hlhs, nofun⟩
    · exact hc
  · cases h

theorem add_spec {cs cs' : List Condition} {part : ConditionPart} {c : Condition}
    (hcs : ∀ x ∈ cs, Condition.DrawnFrom s x) (hc : Condition.DrawnFrom s c)
    (h : Condition.add cs part c = .ok cs') : ∀ x ∈ cs', Condition.DrawnFrom s x := by
  unfold Condition.add at h
  split at h
  · split at h
    · next merged hmerged =>
        obtain ⟨last, hlast, hmerge⟩ := Option.bind_eq_some_iff.1 hmerged
        obtain rfl := Except.ok.inj h
        refine List.forall_mem_append.2 ⟨fun x hx => hcs x (List.dropLast_subset cs hx), ?_⟩
        exact List.forall_mem_singleton.2
          (merge?_spec (hcs last (List.mem_of_getLast? hlast)) hmerge)
    · cases h
  · obtain rfl := Except.ok.inj h
    exact List.forall_mem_append.2 ⟨hcs, List.forall_mem_singleton.2 hc⟩

variable (hdistinct : s.HasDistinctNames)
include hdistinct

theorem comparison?_spec (h : t.Along s) {part : ConditionPart} {op op' : Comparison}
    {value : String} {kind : EntityKind} {rhs : Comparand}
    (hfound : part.comparison? s t op value kind = some ((op', rhs), t')) :
    t'.Along s ∧ ∀ column, s.Resolves column → ∀ op,
      Condition.DrawnFrom s ⟨.column column, op, rhs⟩ := by
  unfold ConditionPart.comparison? at hfound
  -- null, a span of days, another column and a value: of these a column alone adds a reference
  split at hfound
  · obtain ⟨hpair, rfl⟩ := Prod.mk.inj (Option.some.inj hfound)
    obtain ⟨-, rfl⟩ := Prod.mk.inj hpair
    exact ⟨h, fun column hcolumn op => drawnFrom_of_isPlain hcolumn op trivial⟩
  · obtain ⟨days, -, heq⟩ := Option.map_eq_some_iff.1 hfound
    obtain ⟨hpair, rfl⟩ := Prod.mk.inj heq
    obtain ⟨-, rfl⟩ := Prod.mk.inj hpair
    exact ⟨h, fun column hcolumn op => drawnFrom_of_isPlain hcolumn op trivial⟩
  · obtain ⟨⟨other, joined⟩, hother, heq⟩ := Option.map_eq_some_iff.1 hfound
    obtain ⟨hpair, rfl⟩ := Prod.mk.inj heq
    obtain ⟨-, rfl⟩ := Prod.mk.inj hpair
    obtain ⟨halong, hresolves⟩ := resolveColumn?_spec hdistinct h hother
    exact ⟨halong, fun column hcolumn op => drawnFrom_of_columns hcolumn hresolves op⟩
  · obtain ⟨rhs', hrhs, heq⟩ := Option.map_eq_some_iff.1 hfound
    obtain ⟨hpair, rfl⟩ := Prod.mk.inj heq
    obtain ⟨-, rfl⟩ := Prod.mk.inj hpair
    exact ⟨h, fun column hcolumn op =>
      drawnFrom_of_isPlain hcolumn op (isPlain_of_comparand? hrhs)⟩

theorem condition_spec (h : t.Along s) (part : ConditionPart) :
    (part.condition s t).2.Along s ∧
      ∀ c ∈ (part.condition s t).1, Condition.DrawnFrom s c := by
  unfold ConditionPart.condition
  split
  · next op column joined _ hcolumn =>
      obtain ⟨halong, hresolves⟩ := resolve?_spec hdistinct h hcolumn
      refine halong.attempt fun c t' hfound => ?_
      obtain ⟨value, -, hfound⟩ := Option.bind_eq_some_iff.1 hfound
      obtain ⟨kind, -, hfound⟩ := Option.bind_eq_some_iff.1 hfound
      obtain ⟨⟨⟨op', rhs⟩, joined'⟩, hcomparison, hfound⟩ := Option.bind_eq_some_iff.1 hfound
      obtain ⟨rfl, rfl⟩ := Prod.mk.inj (Option.some.inj hfound)
      obtain ⟨halong', hdrawn⟩ := comparison?_spec hdistinct halong hcomparison
      exact ⟨halong', hdrawn column hresolves _⟩
  · exact ⟨h, fun c hc => nomatch hc⟩

/-- All comparisons of a question, one after the other. -/
theorem ofParts_spec {cs cs' : List Condition} (hcs : ∀ x ∈ cs, Condition.DrawnFrom s x)
    (h : t.Along s) {parts : List ConditionPart}
    (hparts : Condition.ofParts s cs t parts = .ok (cs', t')) :
    t'.Along s ∧ ∀ x ∈ cs', Condition.DrawnFrom s x := by
  induction parts generalizing cs t with
  | nil =>
      obtain ⟨rfl, rfl⟩ := Prod.mk.inj (Except.ok.inj hparts)
      exact ⟨h, hcs⟩
  | cons part parts ih =>
      obtain ⟨halong, hdrawn⟩ := condition_spec hdistinct h part
      rw [Condition.ofParts] at hparts
      split at hparts
      · next joined hcondition =>
          rw [hcondition] at halong
          exact ih hcs halong hparts
      · next c joined hcondition =>
          rw [hcondition] at halong hdrawn
          obtain ⟨next, hadd, hrest⟩ := (Failure.bind_eq_ok_iff _ _ _).1 hparts
          exact ih (add_spec hcs (hdrawn c rfl) hadd) halong hrest

end Conditions

section Queries

namespace Components

/-- The aggregates of a question, with the tables of its joins and theirs. -/
def summed (s : Schema) (base : String) (c : Components) : Joined (List Aggregate) :=
  JoinTree.collect (fun t a => a.resolve s t) (c.joins.foldl (JoinTree.joinPart s) (.ofBase base))
    c.aggregations

/-- The groups of a question, with their tables. -/
def grouped (s : Schema) (t : JoinTree) (c : Components) : Joined (List Reference) :=
  let (groupBy, t) := JoinTree.collect (fun t m => m.resolve s t) t c.groupBy
  (distinctColumns groupBy, t)

/-- What a query selects. -/
def selected (s : Schema) (q : Query) (t : JoinTree) (aggregates : List Aggregate)
    (c : Components) : Joined (List Item) :=
  if aggregates.isEmpty && q.groupBy.isEmpty then c.plainItems s q t
  else (groupedItems q.source q.groupBy aggregates, t)

/-- The query for the components of a question, once its conditions and joins are made out. -/
def draft (s : Schema) (base : String) (c : Components) (conditions : List Condition)
    (t : JoinTree) (joins : List Join) : Query :=
  let (aggregates, grown) := c.summed s base
  let q : Query :=
    { source := base, joins, filters := conditions ++ c.timeConditions s t
      groupBy := (c.grouped s grown).1 }
  let (items, t) := c.selected s q t aggregates
  let q := { q with items }
  { q with
    orderBy := (JoinTree.collect (fun t part => part.key s q t) t c.orderBy).1
    limit := c.limit, distinct := c.distinct }

theorem query_eq (s : Schema) (default : Option String) (c : Components) :
    c.query s default = (do
      let base ← c.baseTable s default
      let (conditions, t) ←
        Condition.ofParts s [] (c.grouped s (c.summed s base).2).2 c.conditions
      let joins ← t.joinsFrom base
      let q := c.draft s base conditions t joins
      q.validate
      return q) := by
  unfold query draft grouped selected summed
  dsimp only

end Components

theorem mem_of_mem_distinctColumns {columns : List Reference} {r : Reference}
    (h : r ∈ Components.distinctColumns columns) : r ∈ columns := by
  -- by induction for any columns that were seen before
  have hfold (columns : List Reference) : ∀ seen, ∀ r ∈ columns.foldl
      (fun seen c => if seen.any (·.sameColumn c) then seen else seen ++ [c]) seen,
      r ∈ seen ∨ r ∈ columns := by
    induction columns with
    | nil => exact fun seen r hr => .inl hr
    | cons c rest ih =>
        intro seen r hr
        obtain hseen | hrest := ih _ r hr
        · dsimp only at hseen
          split at hseen
          · exact .inl hseen
          · obtain hseen | hc := List.mem_append.1 hseen
            · exact .inl hseen
            · exact .inr (List.mem_cons.2 (.inl (List.mem_singleton.1 hc)))
        · exact .inr (List.mem_cons_of_mem _ hrest)
  obtain hnil | hmem := hfold columns [] r h
  · cases hnil
  · exact hmem

theorem groupedItems_spec {source : String} {groupBy : List Reference}
    {aggregates : List Aggregate} (hgroups : ∀ r ∈ groupBy, s.Resolves r)
    (haggregates : ∀ a ∈ aggregates, ∀ r ∈ a.references, s.Resolves r) :
    ∀ i ∈ Components.groupedItems source groupBy aggregates, ∀ r ∈ i.references,
      s.Resolves r := by
  refine List.forall_mem_append.2 ⟨fun i hi => ?_, fun i hi => ?_⟩
  · obtain ⟨c, hc, rfl⟩ := List.mem_map.1 hi
    exact List.forall_mem_singleton.2 (hgroups c hc)
  · obtain ⟨a, ha, rfl⟩ := List.mem_map.1 hi
    split at ha
    · rw [List.mem_singleton.1 ha]
      exact List.forall_mem_singleton.2 (s.resolves_star source)
    · exact haggregates a ha

variable (hdistinct : s.HasDistinctNames)
include hdistinct

theorem plainItems_spec (h : t.Along s) (q : Query) (c : Components) :
    (c.plainItems s q t).2.Along s ∧
      ∀ i ∈ (c.plainItems s q t).1, ∀ r ∈ i.references, s.Resolves r := by
  obtain ⟨halong, hresolves⟩ := JoinTree.Along.collect (P := s.Resolves) (t := t)
    (fun t m ht => resolve_spec hdistinct t m ht) h c.selectable
  refine ⟨halong, ?_⟩
  simp only [Components.plainItems]
  split
  · exact List.forall_mem_singleton.2 (List.forall_mem_singleton.2 (s.resolves_star q.source))
  · intro i hi
    obtain ⟨r, hr, rfl⟩ := List.mem_map.1 hi
    exact List.forall_mem_singleton.2 (hresolves r (List.mem_filter.1 hr).1)

theorem key_spec {q : Query} (hitems : ∀ i ∈ q.items, ∀ r ∈ i.references, s.Resolves r)
    (t : JoinTree) (part : OrderPart) (h : t.Along s) :
    (part.key s q t).2.Along s ∧
      ∀ k ∈ (part.key s q t).1, ∀ r ∈ k.item.references, s.Resolves r := by
  unfold OrderPart.key
  split
  -- an aggregate is taken from the items, whose references resolve
  · next a ha =>
      refine ⟨h, fun k hk => ?_⟩
      obtain rfl := Option.some.inj hk
      have hmem : a ∈ q.aggregates := by
        unfold OrderPart.aggregate? at ha
        split at ha
        · cases ha
        · obtain ⟨name, -, ha⟩ := Option.bind_eq_some_iff.1 ha
          obtain ⟨function, -, ha⟩ := Option.bind_eq_some_iff.1 ha
          exact List.mem_of_find?_eq_some ha
      obtain ⟨i, hi, hagg⟩ := List.mem_filterMap.1 hmem
      cases i with
      | column c => cases hagg
      | aggregate b =>
          obtain rfl := Option.some.inj hagg
          exact hitems _ hi
  · obtain ⟨halong, hresolves⟩ := resolve_spec hdistinct t part.target h
    refine ⟨halong, fun k hk => ?_⟩
    obtain ⟨c, hc, rfl⟩ := Option.map_eq_some_iff.1 hk
    exact List.forall_mem_singleton.2 (hresolves c (Option.filter_eq_some_iff.1 hc).1)

theorem summed_spec (base : String) (c : Components) :
    (c.summed s base).2.Along s ∧
      ∀ a ∈ (c.summed s base).1, ∀ r ∈ a.references, s.Resolves r := by
  have hbase : (JoinTree.ofBase base).Along s := fun j hj => absurd hj List.not_mem_nil
  exact (hbase.joinParts c.joins).collect (fun t a ht => aggregation_spec hdistinct t a ht)
    c.aggregations

theorem grouped_spec (h : t.Along s) (c : Components) :
    (c.grouped s t).2.Along s ∧ ∀ r ∈ (c.grouped s t).1, s.Resolves r := by
  obtain ⟨halong, hresolves⟩ :=
    h.collect (fun t m ht => resolve_spec hdistinct t m ht) c.groupBy
  exact ⟨halong, fun r hr => hresolves r (mem_of_mem_distinctColumns hr)⟩

theorem selected_spec (h : t.Along s) (q : Query) (c : Components) {aggregates : List Aggregate}
    (hgroups : ∀ r ∈ q.groupBy, s.Resolves r)
    (haggregates : ∀ a ∈ aggregates, ∀ r ∈ a.references, s.Resolves r) :
    (c.selected s q t aggregates).2.Along s ∧
      ∀ i ∈ (c.selected s q t aggregates).1, ∀ r ∈ i.references, s.Resolves r := by
  unfold Components.selected
  split
  · exact plainItems_spec hdistinct h q c
  · exact ⟨h, groupedItems_spec hgroups haggregates⟩

/-- The query for some components is drawn from the schema. -/
theorem drawnFrom_of_components {default : Option String} {c : Components} {q : Query}
    (h : c.query s default = .ok q) : q.DrawnFrom s := by
  rw [Components.query_eq] at h
  obtain ⟨base, -, h⟩ := (Failure.bind_eq_ok_iff _ _ _).1 h
  obtain ⟨hsummed, haggregates⟩ := summed_spec hdistinct base c
  obtain ⟨hgrouped, hgroups⟩ := grouped_spec hdistinct hsummed c
  obtain ⟨⟨conditions, joined⟩, hconditions, h⟩ := (Failure.bind_eq_ok_iff _ _ _).1 h
  obtain ⟨halong, hdrawn⟩ :=
    ofParts_spec hdistinct (fun x hx => absurd hx List.not_mem_nil) hgrouped hconditions
  obtain ⟨joins, hjoins, h⟩ := (Failure.bind_eq_ok_iff _ _ _).1 h
  obtain ⟨-, hq⟩ := (Failure.check_eq_ok_iff _ _ _).1 h
  obtain rfl := Except.ok.inj hq
  have hfilters : ∀ x ∈ conditions ++ c.timeConditions s joined, Condition.DrawnFrom s x :=
    List.forall_mem_append.2 ⟨hdrawn, timeConditions_spec s joined c⟩
  -- the items come before the order, which may repeat an aggregate of theirs
  let q : Query :=
    { source := base, joins, filters := conditions ++ c.timeConditions s joined
      groupBy := (c.grouped s (c.summed s base).2).1 }
  obtain ⟨hselected, hitems⟩ := selected_spec hdistinct halong q c hgroups haggregates
  have hkey (t : JoinTree) (part : OrderPart) (ht : t.Along s) :=
    key_spec hdistinct
      (q := { q with items := (c.selected s q joined (c.summed s base).1).1 }) hitems t part ht
  obtain ⟨-, hkeys⟩ := hselected.collect hkey c.orderBy
  exact {
    items := hitems
    joins := fun j hj => halong.mem_joinsFrom hjoins hj
    filters := hfilters
    groupBy := hgroups
    having_nil := rfl
    orderBy := hkeys }

end Queries

namespace Schema

/-- Where no two tables have the same name, all queries are drawn from the schema, those for the
words of a question and those for any components. -/
theorem queries_drawnFrom (s : Schema) (hdistinct : s.HasDistinctNames) :
    (∀ default text q, Heuristic.query s default text = .ok q → q.DrawnFrom s) ∧
      ∀ default c q, Components.query s default c = .ok q → q.DrawnFrom s :=
  ⟨fun _ _ _ h => Heuristic.drawnFrom_of_query hdistinct h,
    fun _ _ _ h => drawnFrom_of_components hdistinct h⟩

/-- A sum by a city, from the words of a question and from components. -/
theorem queries_drawnFrom_shop :
    Heuristic.shop.HasDistinctNames ∧
      (∃ q, Heuristic.query Heuristic.shop none "total revenue by city" = .ok q ∧
        q.DrawnFrom Heuristic.shop) ∧
      ∃ q, Components.query Heuristic.shop none
          { aggregations := [⟨"sum", "total", none⟩], groupBy := [{ column := some "city" }] } =
            .ok q ∧ q.DrawnFrom Heuristic.shop := by
  have hdistinct : Heuristic.shop.HasDistinctNames := by
    rw [HasDistinctNames]
    decide
  obtain ⟨hwords, hcomponents⟩ := queries_drawnFrom Heuristic.shop hdistinct
  have hword : ((Heuristic.query Heuristic.shop none "total revenue by city").map
      fun q => q.groupBy.length) = .ok 1 := by decide +kernel
  have hpart : ((Components.query Heuristic.shop none
      { aggregations := [⟨"sum", "total", none⟩], groupBy := [{ column := some "city" }] }).map
        fun q => q.joins.length) = .ok 1 := by decide +kernel
  obtain ⟨q, hq, -⟩ := (Failure.map_eq_ok_iff _ _ _).1 hword
  obtain ⟨q', hq', -⟩ := (Failure.map_eq_ok_iff _ _ _).1 hpart
  exact ⟨hdistinct, ⟨q, hq, hwords _ _ _ hq⟩, ⟨q', hq', hcomponents _ _ _ hq'⟩⟩

/-- Two tables with the same name, the second one with a column that the first one lacks. -/
def twinOrders : Schema where
  tables := [
    { name := "orders", columns := [{ name := "id", type := .integer }] },
    { name := "Orders",
      columns := [{ name := "id", type := .integer }, { name := "region", type := .text }] }]

/-- The column is taken from the second table, and the name of that table finds the first one. -/
theorem drawnFrom_twinOrders :
    ∃ q, Heuristic.query twinOrders none "orders by region" = .ok q ∧
      q.groupBy = [⟨"Orders", "region", none⟩] ∧
      twinOrders.column? "Orders" "region" = none ∧ ¬q.DrawnFrom twinOrders := by
  have hgroups : ((Heuristic.query twinOrders none "orders by region").map
      fun q => decide (q.groupBy = [⟨"Orders", "region", none⟩])) = .ok true := by decide +kernel
  obtain ⟨q, hq, hregion⟩ := (Failure.map_eq_ok_iff _ _ _).1 hgroups
  have hgroup := of_decide_eq_true hregion
  have hnone : twinOrders.column? "Orders" "region" = none := by decide
  refine ⟨q, hq, hgroup, hnone, fun hdrawn => ?_⟩
  have hresolves : twinOrders.Resolves ⟨"Orders", "region", none⟩ :=
    hdrawn.groupBy _ (by rw [hgroup]; exact List.mem_cons_self)
  have hsome := hresolves (by decide)
  rw [hnone] at hsome
  cases hsome

end Schema

end AskSql
