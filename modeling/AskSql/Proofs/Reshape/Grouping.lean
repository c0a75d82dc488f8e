import AskSql.Proofs.Reshape.Settled

/-!
# What a completed grouping selects

Completing a grouping selects the keys that the query does not select yet, between the items in
front of the first aggregate and the rest of them (`Query.CompletesOnce`).  Each of these columns
should be selected once, but it is selected once for every time that it is a key
(`Query.items_completeGrouping`): what is missing is listed before any of it is selected, and double
keys are dropped afterwards.  So the columns are selected once exactly if none that is missing is a
key twice, and always where the double keys were dropped first.

Keys that completing adds itself come from columns that are selected, so none of these is missing
(`Query.unselectedKeys_eq`).
-/

namespace AskSql
namespace Query

variable {q : Query}

/-! ### Keys that are not selected -/

/-- The query selects the column of a key, under some spelling and any label. -/
def Selects (q : Query) (key : Reference) : Prop :=
  ∃ c ∈ q.plainColumns, c.sameColumn key = true

/-- The keys that the query does not select, as often as they are keys. -/
def missingKeys (q : Query) : List Reference :=
  q.groupBy.filter fun g => !q.plainColumns.any (·.sameColumn g)

/-- One key for each column that is a key and not selected, in the order of the keys. -/
structure OneForEach (q : Query) (keys : List Reference) : Prop where
  sublist : keys.Sublist q.groupBy
  unselected : ∀ g ∈ keys, ¬ q.Selects g
  covers : ∀ g ∈ q.groupBy, ¬ q.Selects g → ∃ k ∈ keys, k.sameColumn g = true
  distinct : keys.Pairwise fun g g' => g.sameColumn g' = false

theorem any_plainColumns_iff {key : Reference} :
    q.plainColumns.any (·.sameColumn key) = true ↔ q.Selects key :=
  List.any_eq_true

theorem mem_missingKeys {g : Reference} : g ∈ q.missingKeys ↔ g ∈ q.groupBy ∧ ¬ q.Selects g := by
  rw [missingKeys, List.mem_filter, Bool.not_eq_true', ← Bool.not_eq_true, any_plainColumns_iff]

/-- A column that becomes a key is selected already. -/
theorem selects_of_mem_ungrouped {g : Reference} (h : g ∈ q.ungrouped) : q.Selects g := by
  unfold ungrouped at h
  split at h
  · obtain ⟨c, hc, rfl⟩ := List.mem_map.1 h
    exact ⟨c, (List.mem_filter.1 hc).1, c.sameColumn_self⟩
  · cases h

theorem unselectedKeys_eq (q : Query) :
    q.unselectedKeys = q.missingKeys.map Reference.unlabelled := by
  have hnone : q.ungrouped.filter (fun g => !q.plainColumns.any (·.sameColumn g)) = [] := by
    rw [List.filter_eq_nil_iff]
    intro g hg
    rw [any_plainColumns_iff.2 (selects_of_mem_ungrouped hg)]
    exact Bool.false_ne_true
  rw [unselectedKeys, completedKeys, List.filter_append, hnone, List.append_nil, missingKeys]

/-- The missing keys are one for each column unless one of them stands twice. -/
theorem oneForEach_missingKeys (h : q.missingKeys.Pairwise fun g g' => g.sameColumn g' = false) :
    q.OneForEach q.missingKeys where
  sublist := List.filter_sublist
  unselected _ hg := (mem_missingKeys.1 hg).2
  covers g hg hmissing := ⟨g, mem_missingKeys.2 ⟨hg, hmissing⟩, g.sameColumn_self⟩
  distinct := h

/-! ### Where they are selected -/

/-- The first items are no aggregates, and the others, if there are any, begin with one. -/
structure SplitAtAggregate (before after : List Item) : Prop where
  before_plain : ∀ i ∈ before, i.isAggregate = false
  after_aggregate : ∀ i ∈ after.head?, i.isAggregate = true

theorem splitAtAggregate (items : List Item) :
    SplitAtAggregate (items.takeWhile fun i => !i.isAggregate)
      (items.dropWhile fun i => !i.isAggregate) where
  before_plain i hi := by
    have hplain := List.all_eq_true.1 List.all_takeWhile i hi
    rwa [Bool.not_eq_true'] at hplain
  after_aggregate i hi := by
    have hfirst := List.head?_dropWhile_not (fun i : Item => !i.isAggregate) items
    rw [Option.mem_def.1 hi] at hfirst
    simpa using hfirst

/-- There is only one place to split a list of items. -/
theorem SplitAtAggregate.unique {before after before' after' : List Item}
    (h : SplitAtAggregate before after) (h' : SplitAtAggregate before' after')
    (heq : before ++ after = before' ++ after') : before = before' ∧ after = after' := by
  induction before generalizing before' with
  | nil =>
      cases before' with
      | nil => exact ⟨rfl, heq⟩
      | cons i before' =>
          -- the second list begins with an item that is an aggregate and is none
          have hplain := h'.before_plain i List.mem_cons_self
          rw [h.after_aggregate i (by rw [← List.nil_append after, heq]; rfl)] at hplain
          cases hplain
  | cons i before ih =>
      cases before' with
      | nil =>
          have hplain := h.before_plain i List.mem_cons_self
          rw [h'.after_aggregate i (by rw [← List.nil_append after', ← heq]; rfl)] at hplain
          cases hplain
      | cons i' before' =>
          obtain ⟨rfl, hrest⟩ := List.cons.inj heq
          obtain ⟨rfl, rfl⟩ := ih ⟨(List.forall_mem_cons.1 h.before_plain).2, h.after_aggregate⟩
            ⟨(List.forall_mem_cons.1 h'.before_plain).2, h'.after_aggregate⟩ hrest
          exact ⟨rfl, rfl⟩

/-- A key as a selected column. -/
def selectedKey (key : Reference) : Item :=
  .column key.unlabelled

/-- Completing the grouping selects these keys, between the items in front of the first aggregate
and the others. -/
def CompletesWith (q : Query) (keys : List Reference) : Prop :=
  ∃ before after, SplitAtAggregate before after ∧ q.items = before ++ after ∧
    q.completeGrouping.query.items = before ++ keys.map selectedKey ++ after

/-- Completing the grouping selects each missing column once. -/
def CompletesOnce (q : Query) : Prop :=
  ∃ keys, q.OneForEach keys ∧ q.CompletesWith keys

theorem completesWith_missingKeys (q : Query) : q.CompletesWith q.missingKeys := by
  refine ⟨_, _, splitAtAggregate q.items, List.takeWhile_append_dropWhile.symm, ?_⟩
  have hkeys : q.unselectedKeys.map Item.column = q.missingKeys.map selectedKey := by
    rw [unselectedKeys_eq, List.map_map]
    rfl
  change insertItems q.items (q.unselectedKeys.map .column) = _
  rw [hkeys, insertItems]

/-- What is selected in the end tells which columns were added. -/
theorem CompletesWith.unique {keys keys' : List Reference} (h : q.CompletesWith keys)
    (h' : q.CompletesWith keys') :
    keys.map Reference.unlabelled = keys'.map Reference.unlabelled := by
  obtain ⟨before, after, hsplit, hitems, hall⟩ := h
  obtain ⟨before', after', hsplit', hitems', hall'⟩ := h'
  obtain ⟨rfl, rfl⟩ := hsplit.unique hsplit' (hitems.symm.trans hitems')
  have hmore : keys.map selectedKey = keys'.map selectedKey :=
    List.append_cancel_left (List.append_cancel_right (hall.symm.trans hall'))
  have hcolumns := congrArg (List.filterMap Item.column?) hmore
  simpa [selectedKey, List.filterMap_map, Function.comp_def, Item.column?] using hcolumns

/-- The label of a key does not tell which column it is. -/
theorem pairwise_map_unlabelled {keys : List Reference} :
    ((keys.map Reference.unlabelled).Pairwise fun g g' => g.sameColumn g' = false) ↔
      keys.Pairwise fun g g' => g.sameColumn g' = false := by
  rw [List.pairwise_map]
  rfl

theorem completesOnce_iff :
    q.CompletesOnce ↔ q.missingKeys.Pairwise fun g g' => g.sameColumn g' = false := by
  constructor
  · rintro ⟨keys, hkeys, hwith⟩
    rw [← pairwise_map_unlabelled, ← hwith.unique q.completesWith_missingKeys,
      pairwise_map_unlabelled]
    exact hkeys.distinct
  · exact fun h => ⟨_, oneForEach_missingKeys h, q.completesWith_missingKeys⟩

/-- Completing the grouping of any query selects the keys that are not selected, in their order,
directly in front of the first aggregate or else at the end, each as often as it is a key.  It
selects one for each column exactly if no missing key stands twice, as is the case after double keys
were dropped. -/
theorem items_completeGrouping (q : Query) :
    q.CompletesWith q.missingKeys ∧
      (q.CompletesOnce ↔ q.missingKeys.Pairwise fun g g' => g.sameColumn g' = false) ∧
      q.dedupGrouping.query.CompletesOnce := by
  refine ⟨q.completesWith_missingKeys, completesOnce_iff, completesOnce_iff.2 ?_⟩
  have hdistinct : q.distinctKeys.Pairwise fun g g' => g.sameColumn g' = false :=
    pairwise_foldl_addKey q.groupBy List.Pairwise.nil
  exact hdistinct.sublist List.filter_sublist

/-- Orders counted by region, which is a key twice, in two spellings. -/
def ordersByRegion : Query where
  source := "orders"
  items := [.aggregate (.countRows "orders")]
  groupBy := [⟨"orders", "region", none⟩, ⟨"Orders", "REGION", none⟩]

/-- The region is selected twice, once in each spelling. -/
theorem items_completeGrouping_ordersByRegion :
    ordersByRegion.completeGrouping.query.items =
        [.column ⟨"orders", "region", none⟩, .column ⟨"Orders", "REGION", none⟩,
          .aggregate (.countRows "orders")] ∧
      ¬ ordersByRegion.CompletesOnce := by
  refine ⟨by decide +kernel, fun h => ?_⟩
  have hrepeated : ordersByRegion.missingKeys =
      [⟨"orders", "region", none⟩, ⟨"Orders", "REGION", none⟩] := by
    decide +kernel
  have hdistinct := completesOnce_iff.1 h
  rw [hrepeated] at hdistinct
  have hsame : Reference.sameColumn ⟨"orders", "region", none⟩ ⟨"Orders", "REGION", none⟩ = true := by
    decide +kernel
  rw [(List.pairwise_cons.1 hdistinct).1 _ List.mem_cons_self] at hsame
  cases hsame

end Query
end AskSql
