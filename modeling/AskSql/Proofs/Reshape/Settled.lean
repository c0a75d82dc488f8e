import AskSql.Proofs.Decimal.Order
import AskSql.Proofs.Reshape.Scope

/-!
# Reshaping a second time

What a completed grouping is, and when a condition of the filter stays there, can be said of the
query alone.  A query that completing, dropping double keys and pushing down have been through is
such a query, so they find nothing in it the second time (`Grouped.completeGrouping`,
`Grouped.dedupGrouping`, `pushDown_pushDown`).

Folding looks at every condition once.  The comparison that takes the place of a list or a range of
one value may be one of two literals, and then it is left for a second run to drop; nothing is ever
left for a third one (`foldConstants_again`).
-/

namespace AskSql

namespace Query

/-! ### Groupings -/

/-- Next to an aggregate every plain column is a key, and every key is selected. -/
structure CompleteGrouping (q : Query) : Prop where
  columns_grouped : q.hasAggregates = true → ∀ c ∈ q.plainColumns, c.isStar = false →
    ∃ g ∈ q.groupBy, g.sameColumn c = true
  keys_selected : ∀ g ∈ q.groupBy, ∃ c ∈ q.plainColumns, c.sameColumn g = true

/-- A grouping to which nothing is to be added and from which nothing is to be dropped. -/
structure Grouped (q : Query) : Prop where
  complete : q.CompleteGrouping
  keys_distinct : q.groupBy.Pairwise fun g g' => g.sameColumn g' = false

theorem plainColumns_completeGrouping {q : Query} {c : Reference} :
    c ∈ q.completeGrouping.query.plainColumns ↔ c ∈ q.plainColumns ∨ c ∈ q.unselectedKeys := by
  simp [mem_plainColumns, completeGrouping, mem_insertItems]

theorem hasAggregates_completeGrouping (q : Query) :
    q.completeGrouping.query.hasAggregates = q.hasAggregates := by
  rw [Bool.eq_iff_iff]
  simp only [hasAggregates, completeGrouping, List.any_eq_true, mem_insertItems, List.mem_map]
  constructor
  · rintro ⟨i, hi | ⟨c, -, rfl⟩, haggregate⟩
    · exact ⟨i, hi, haggregate⟩
    · cases haggregate
  · rintro ⟨i, hi, haggregate⟩
    exact ⟨i, Or.inl hi, haggregate⟩

theorem mem_completedKeys_of_plain {q : Query} (haggregates : q.hasAggregates = true)
    {c : Reference} (hc : c ∈ q.plainColumns) (hstar : c.isStar = false) :
    ∃ g ∈ q.completedKeys, g.sameColumn c = true := by
  by_cases hgrouped : ∃ g ∈ q.groupBy, g.sameColumn c = true
  · obtain ⟨g, hg, hsame⟩ := hgrouped
    exact ⟨g, List.mem_append_left _ hg, hsame⟩
  · refine ⟨c.unlabelled, List.mem_append_right _ ?_, c.sameColumn_self⟩
    rw [ungrouped, if_pos haggregates]
    refine List.mem_map_of_mem (List.mem_filter.2 ⟨hc, ?_⟩)
    have hnone : q.groupBy.any (fun g => g.sameColumn c) = false := by
      simpa using hgrouped
    simp [hstar, hnone]

theorem completeGrouping_complete (q : Query) : q.completeGrouping.query.CompleteGrouping := by
  constructor
  · intro haggregates c hc hstar
    rw [hasAggregates_completeGrouping] at haggregates
    obtain hc | hc := plainColumns_completeGrouping.1 hc
    · exact mem_completedKeys_of_plain haggregates hc hstar
    · simp only [unselectedKeys, List.mem_map, List.mem_filter] at hc
      obtain ⟨g, ⟨hg, -⟩, rfl⟩ := hc
      exact ⟨g, hg, g.sameColumn_self⟩
  · intro g hg
    simp only [plainColumns_completeGrouping]
    by_cases hselected : ∃ c ∈ q.plainColumns, c.sameColumn g = true
    · obtain ⟨c, hc, hsame⟩ := hselected
      exact ⟨c, Or.inl hc, hsame⟩
    · refine ⟨g.unlabelled, Or.inr ?_, g.sameColumn_self⟩
      have hnone : q.plainColumns.any (fun c => c.sameColumn g) = false := by
        simpa using hselected
      exact List.mem_map_of_mem (List.mem_filter.2 ⟨hg, by simp [hnone]⟩)

theorem CompleteGrouping.ungrouped_eq_nil {q : Query} (h : q.CompleteGrouping) :
    q.ungrouped = [] := by
  unfold ungrouped
  split
  · next haggregates =>
      rw [List.map_eq_nil_iff, List.filter_eq_nil_iff]
      intro c hc hmissing
      simp only [Bool.and_eq_true, Bool.not_eq_true', List.any_eq_false] at hmissing
      obtain ⟨g, hg, hsame⟩ := h.columns_grouped haggregates c hc hmissing.1
      exact hmissing.2 g hg hsame
  · rfl

theorem CompleteGrouping.unselectedKeys_eq_nil {q : Query} (h : q.CompleteGrouping) :
    q.unselectedKeys = [] := by
  unfold unselectedKeys
  rw [completedKeys, h.ungrouped_eq_nil, List.append_nil, List.map_eq_nil_iff,
    List.filter_eq_nil_iff]
  intro g hg hmissing
  simp only [Bool.not_eq_true', List.any_eq_false] at hmissing
  obtain ⟨c, hc, hsame⟩ := h.keys_selected g hg
  exact hmissing c hc hsame

theorem completeGrouping_of_nil {q : Query} (hungrouped : q.ungrouped = [])
    (hunselected : q.unselectedKeys = []) : q.completeGrouping.query = q := by
  have hkeys : q.completedKeys = q.groupBy := by
    rw [completedKeys, hungrouped, List.append_nil]
  have hitems : insertItems q.items (q.unselectedKeys.map .column) = q.items := by
    rw [hunselected, insertItems, List.map_nil, List.append_nil, List.takeWhile_append_dropWhile]
  cases q
  simp only [completeGrouping, hkeys, hitems]

/-- A complete grouping is left as it is. -/
theorem CompleteGrouping.completeGrouping {q : Query} (h : q.CompleteGrouping) :
    q.completeGrouping.query = q :=
  completeGrouping_of_nil h.ungrouped_eq_nil h.unselectedKeys_eq_nil

/-- Every key that is added stands among the keys, under this or another spelling. -/
theorem exists_sameColumn_foldl_addKey (keys more : List Reference) :
    ∀ key ∈ keys ++ more, ∃ g ∈ more.foldl addKey keys, g.sameColumn key = true := by
  intro key hkey
  obtain hkey | hkey := List.mem_append.1 hkey
  · exact ⟨key, subset_foldl_addDistinct _ keys more hkey, key.sameColumn_self⟩
  · obtain ⟨g, hg, rfl | hsame⟩ := exists_mem_foldl_addDistinct
      (fun new old : Reference => old.sameColumn new) keys hkey
    · exact ⟨g, hg, g.sameColumn_self⟩
    · exact ⟨g, hg, hsame⟩

/-- Keys of which no two name the same column are all added. -/
theorem foldl_addKey_eq_append {keys more : List Reference}
    (h : (keys ++ more).Pairwise fun g g' => g.sameColumn g' = false) :
    more.foldl addKey keys = keys ++ more :=
  foldl_addDistinct_eq_append h

theorem pairwise_foldl_addKey {keys : List Reference} (more : List Reference)
    (h : keys.Pairwise fun g g' => g.sameColumn g' = false) :
    (more.foldl addKey keys).Pairwise fun g g' => g.sameColumn g' = false :=
  pairwise_foldl_addDistinct more h

theorem dedupGrouping_of_distinctKeys {q : Query} (h : q.distinctKeys = q.groupBy) :
    q.dedupGrouping.query = q := by
  cases q
  simp only [dedupGrouping, h]

/-- A grouping without double keys is left as it is. -/
theorem Grouped.dedupGrouping {q : Query} (h : q.Grouped) : q.dedupGrouping.query = q :=
  dedupGrouping_of_distinctKeys (foldl_addKey_eq_append h.keys_distinct)

/-- What the two passes make of a grouping. -/
theorem grouped_dedupGrouping {q : Query} (h : q.CompleteGrouping) :
    q.dedupGrouping.query.Grouped := by
  have hsame : ∀ key ∈ q.groupBy, ∃ g ∈ q.distinctKeys, g.sameColumn key = true := by
    intro key hkey
    exact exists_sameColumn_foldl_addKey [] q.groupBy key (by simpa using hkey)
  refine ⟨⟨?_, ?_⟩, pairwise_foldl_addKey q.groupBy List.Pairwise.nil⟩
  · intro haggregates c hc hstar
    obtain ⟨g, hg, hgc⟩ := h.columns_grouped haggregates c hc hstar
    obtain ⟨g', hg', hgg⟩ := hsame g hg
    exact ⟨g', hg', Reference.sameColumn_trans hgg hgc⟩
  · intro g hg
    exact h.keys_selected g (by simpa using (sublist_foldl_addKey [] q.groupBy).subset hg)

/-- Only the selected items and the keys make up a grouping. -/
theorem Grouped.congr {p q : Query} (h : q.Grouped) (hitems : p.items = q.items)
    (hkeys : p.groupBy = q.groupBy) : p.Grouped := by
  have hcolumns : p.plainColumns = q.plainColumns := by
    rw [plainColumns, hitems, plainColumns]
  have haggregates : p.hasAggregates = q.hasAggregates := by
    rw [hasAggregates, hitems, hasAggregates]
  refine ⟨⟨?_, ?_⟩, ?_⟩
  · rw [hcolumns, haggregates, hkeys]
    exact h.complete.columns_grouped
  · rw [hcolumns, hkeys]
    exact h.complete.keys_selected
  · rw [hkeys]
    exact h.keys_distinct

theorem Grouped.foldConstants {q : Query} (h : q.Grouped) : q.foldConstants.query.Grouped :=
  h.congr rfl rfl

theorem Grouped.pushDown {q : Query} (h : q.Grouped) : q.pushDown.query.Grouped :=
  h.congr rfl rfl

end Query

/-! ### Folded conditions -/

namespace Literal

/-- Only the places of floats matter, and whether they are numbers. -/
theorem compareFloats?_congr {x x' y y' : Float}
    (hx : x.isNaN = x'.isNaN ∧ Decimal.rank x = Decimal.rank x')
    (hy : y.isNaN = y'.isNaN ∧ Decimal.rank y = Decimal.rank y') :
    compare?.compareFloats? x y = compare?.compareFloats? x' y' := by
  have hless : x < y ↔ x' < y' := by
    rw [Decimal.lt_iff, Decimal.lt_iff, hx.1, hx.2, hy.1, hy.2]
  have hmore : y < x ↔ y' < x' := by
    rw [Decimal.lt_iff, Decimal.lt_iff, hx.1, hx.2, hy.1, hy.2]
  have hsame : (x == y) = (x' == y') := by
    rw [Bool.eq_iff_iff, Decimal.beq_iff, Decimal.beq_iff, hx.1, hx.2, hy.1, hy.2]
  simp only [compare?.compareFloats?, hless, hmore, hsame]

/-- Equal literals are the same, or floats at the same place. -/
theorem eq_or_float_of_beq {v w : Literal} (h : (v == w) = true) :
    v = w ∨ ∃ x y, v = .float x ∧ w = .float y ∧
      x.isNaN = y.isNaN ∧ Decimal.rank x = Decimal.rank y := by
  change v.beq w = true at h
  cases v <;> cases w <;> simp only [beq, Bool.false_eq_true, beq_iff_eq] at h
  case float.float x y =>
    obtain ⟨hx, hy, hrank⟩ := (Decimal.beq_iff x y).1 h
    exact .inr ⟨x, y, rfl, rfl, hx.trans hy.symm, hrank⟩
  all_goals exact .inl (congrArg _ h)

theorem evaluate?_congr {a a' b b' : Literal} (ha : (a == a') = true) (hb : (b == b') = true)
    (op : Comparison) : a.evaluate? op b = a'.evaluate? op b' := by
  have hleft : a.compare? b = a'.compare? b := by
    obtain rfl | ⟨x, x', rfl, rfl, hx⟩ := eq_or_float_of_beq ha
    · rfl
    · cases b with
      | integer n => exact compareFloats?_congr hx ⟨rfl, rfl⟩
      | float y => exact compareFloats?_congr hx ⟨rfl, rfl⟩
      | _ => rfl
  have hright : a'.compare? b = a'.compare? b' := by
    obtain rfl | ⟨y, y', rfl, rfl, hy⟩ := eq_or_float_of_beq hb
    · rfl
    · cases a' with
      | integer n => exact compareFloats?_congr ⟨rfl, rfl⟩ hy
      | float x => exact compareFloats?_congr ⟨rfl, rfl⟩ hy
      | _ => rfl
  rw [evaluate?, evaluate?, hleft, hright]

end Literal

namespace Condition

theorem AlwaysHolds.congr {c d : Condition} (h : c.AlwaysHolds) (hcd : (c == d) = true) :
    d.AlwaysHolds := by
  cases h with
  | @compare a b op heval =>
      obtain ⟨lhs, op', rhs⟩ := d
      change Condition.beq _ _ = true at hcd
      rw [Condition.beq, Bool.and_eq_true, Bool.and_eq_true] at hcd
      obtain ⟨⟨hlhs, hop⟩, hrhs⟩ := hcd
      obtain rfl := eq_of_beq hop
      change Operand.beq _ _ = true at hlhs
      -- what equals a literal is one
      cases lhs <;> simp only [Operand.beq, Bool.false_eq_true] at hlhs
      cases rhs <;> simp only [Comparand.beq, Bool.false_eq_true] at hrhs
      exact .compare ((Literal.evaluate?_congr hlhs hrhs op).symm.trans heval)

/-- What one run makes of a condition is for the next one to drop. -/
def FoldsTwice (c : Condition) : Prop :=
  ∃ d, c.Narrows d ∧ d.AlwaysHolds

/-- A list in which there is nothing to fold. -/
structure AtRest (cs : List Condition) : Prop where
  kept : ∀ c ∈ cs, c.fold = .kept
  distinct : cs.Pairwise fun c d => (d == c) = false

/-- What remains of a condition is in the folded list, or something equal is. -/
theorem exists_mem_foldAll {cs : List Condition} {c d : Condition} (hc : c ∈ cs)
    (hd : c.remainder? = some d) : ∃ e ∈ (foldAll cs).1, e = d ∨ (d == e) = true := by
  rw [fst_foldAll]
  exact exists_mem_foldl_addDistinct _ [] (List.mem_filterMap.2 ⟨c, hc, hd⟩)

/-- No list or range of one value is left. -/
theorem not_narrows_of_mem_foldAll {cs : List Condition} {e : Condition}
    (h : e ∈ (foldAll cs).1) (d : Condition) : ¬ e.Narrows d := by
  obtain ⟨-, hkept⟩ | ⟨c, -, hce⟩ := mem_foldAll h
  · exact (fold_eq_kept_iff.1 hkept).2 d
  · exact hce.not_narrows

/-- A folded list is at rest unless one of its conditions folds twice. -/
theorem atRest_foldAll_iff {cs : List Condition} :
    AtRest (foldAll cs).1 ↔ ∀ c ∈ cs, ¬ c.FoldsTwice := by
  constructor
  · rintro h c hc ⟨d, hnarrows, halways⟩
    have hd : c.remainder? = some d := by
      obtain ⟨note, hfold⟩ := fold_eq_replaced_iff.2 hnarrows
      rw [remainder?, hfold]
    obtain ⟨e, he, hsame⟩ := exists_mem_foldAll hc hd
    refine (fold_eq_kept_iff.1 (h.kept e he)).1 ?_
    obtain rfl | hsame := hsame
    · exact halways
    · exact halways.congr hsame
  · intro h
    refine ⟨fun e he => fold_eq_kept_iff.2 ⟨fun halways => ?_, not_narrows_of_mem_foldAll he⟩, ?_⟩
    · obtain ⟨-, hkept⟩ | ⟨c, hc, hce⟩ := mem_foldAll he
      · exact (fold_eq_kept_iff.1 hkept).1 halways
      · exact h c hc ⟨e, hce, halways⟩
    · rw [fst_foldAll]
      exact pairwise_foldl_addDistinct _ List.Pairwise.nil

/-- A list that was folded twice is at rest. -/
theorem atRest_foldAll_foldAll (cs : List Condition) : AtRest (foldAll (foldAll cs).1).1 := by
  rw [atRest_foldAll_iff]
  rintro e he ⟨d, hnarrows, -⟩
  exact not_narrows_of_mem_foldAll he d hnarrows

/-! ### Lists at rest -/

theorem foldInto_of_kept {acc : List Condition × List String} {c : Condition}
    (hfold : c.fold = .kept) (hnew : acc.1.contains c = false) :
    foldInto acc c = (acc.1 ++ [c], acc.2) := by
  simp only [foldInto, hfold, addFolded, hnew, Bool.false_eq_true, if_false, List.append_nil]

/-- A list at rest stays as it is, and there is nothing to note. -/
theorem AtRest.foldAll_eq {cs : List Condition} (h : AtRest cs) : foldAll cs = (cs, []) := by
  -- the invariant: what is kept so far, with the rest behind it, has no repetitions
  have hrun : ∀ (rest : List Condition) (acc : List Condition × List String),
      (∀ c ∈ rest, c.fold = .kept) → (acc.1 ++ rest).Pairwise (fun c d => (d == c) = false) →
        rest.foldl foldInto acc = (acc.1 ++ rest, acc.2) := by
    intro rest
    induction rest with
    | nil =>
        intro acc _ _
        rw [List.foldl_nil, List.append_nil]
    | cons c rest ih =>
        intro acc hkept hdistinct
        rw [List.forall_mem_cons] at hkept
        have hnew : acc.1.contains c = false := by
          rw [List.contains_eq_any_beq, List.any_eq_false]
          intro d hd
          rw [(List.pairwise_append.1 hdistinct).2.2 d hd c List.mem_cons_self]
          exact Bool.false_ne_true
        rw [← List.singleton_append, ← List.append_assoc] at hdistinct
        rw [List.foldl_cons, foldInto_of_kept hkept.1 hnew, ih _ hkept.2 hdistinct,
          List.append_assoc, List.singleton_append]
  exact hrun cs ([], []) h.kept h.distinct

theorem kept_of_snd_foldInto {acc : List Condition × List String} {c : Condition}
    (h : (foldInto acc c).2 = []) : acc.2 = [] ∧ c.fold = .kept ∧ acc.1.contains c = false := by
  unfold foldInto at h
  split at h
  · simp at h
  · unfold addFolded at h
    split at h <;> simp at h
  · next hkept =>
      unfold addFolded at h
      split at h
      · simp at h
      · next hnew =>
          rw [List.append_nil] at h
          exact ⟨h, hkept, Bool.not_eq_true _ ▸ hnew⟩

/-- Where nothing is noted, the list was at rest. -/
theorem atRest_of_snd_foldAll {cs : List Condition} (h : (foldAll cs).2 = []) : AtRest cs := by
  -- no note is ever taken back, so none was taken at any step
  have hrun : ∀ (rest : List Condition) (acc : List Condition × List String),
      (rest.foldl foldInto acc).2 = [] →
        acc.2 = [] ∧ (∀ c ∈ rest, c.fold = .kept) ∧
          (acc.1.Pairwise (fun c d => (d == c) = false) →
            (acc.1 ++ rest).Pairwise fun c d => (d == c) = false) := by
    intro rest
    induction rest with
    | nil =>
        intro acc h
        rw [List.append_nil]
        exact ⟨h, List.forall_mem_nil _, id⟩
    | cons c rest ih =>
        intro acc h
        obtain ⟨hnone, hkept, hdistinct⟩ := ih (foldInto acc c) h
        obtain ⟨hacc, hc, hnew⟩ := kept_of_snd_foldInto hnone
        refine ⟨hacc, List.forall_mem_cons.2 ⟨hc, hkept⟩, fun hpairwise => ?_⟩
        rw [foldInto_of_kept hc hnew, List.append_assoc, List.singleton_append] at hdistinct
        apply hdistinct
        refine List.pairwise_append.2 ⟨hpairwise, List.pairwise_singleton _ _, fun d hd e he => ?_⟩
        rw [List.contains_eq_any_beq, List.any_eq_false] at hnew
        rw [List.mem_singleton.1 he, ← Bool.not_eq_true]
        exact hnew d hd
  obtain ⟨-, hkept, hdistinct⟩ := hrun cs ([], []) h
  exact ⟨hkept, hdistinct List.Pairwise.nil⟩

end Condition

namespace Query

/-- Nothing is noted where every list of conditions is at rest. -/
theorem note_foldConstants_eq_none_iff {q : Query} :
    q.foldConstants.note = none ↔ Condition.AtRest q.filters ∧ Condition.AtRest q.having ∧
      ∀ j ∈ q.joins, Condition.AtRest j.conditions := by
  have hlist {cs : List Condition} : (Condition.foldAll cs).2 = [] ↔ Condition.AtRest cs :=
    ⟨Condition.atRest_of_snd_foldAll, fun h => congrArg Prod.snd h.foldAll_eq⟩
  simp only [foldConstants, joinNotes, ite_eq_left_iff, reduceCtorEq, imp_false, not_not,
    List.isEmpty_iff, List.append_eq_nil_iff, hlist, List.flatMap_eq_nil_iff, List.forall_mem_map,
    and_assoc]

/-- Where nothing is noted, nothing is changed. -/
theorem foldConstants_of_note_eq_none {q : Query} (h : q.foldConstants.note = none) :
    q.foldConstants.query = q := by
  obtain ⟨hfilters, hhaving, hjoins⟩ := note_foldConstants_eq_none_iff.1 h
  have hsame : q.foldConstants.query.joins = q.joins := by
    rw [joins_foldConstants]
    refine (List.map_congr_left fun j hj => ?_).trans (List.map_id q.joins)
    rw [(hjoins j hj).foldAll_eq]
    cases j
    rfl
  have hquery : q.foldConstants.query =
      { q with
        joins := q.foldConstants.query.joins
        filters := (Condition.foldAll q.filters).1
        having := (Condition.foldAll q.having).1 } := rfl
  rw [hquery, hsame, hfilters.foldAll_eq, hhaving.foldAll_eq]
  cases q
  rfl

theorem note_foldConstants_foldConstants_iff {q : Query} :
    q.foldConstants.query.foldConstants.note = none ↔ ∀ c ∈ q.conditions, ¬ c.FoldsTwice := by
  rw [note_foldConstants_eq_none_iff, joins_foldConstants, List.forall_mem_map]
  simp only [conditions, List.forall_mem_append, List.forall_mem_flatMap, and_assoc]
  exact and_congr Condition.atRest_foldAll_iff (and_congr Condition.atRest_foldAll_iff
    (forall₂_congr fun _ _ => Condition.atRest_foldAll_iff))

/-- A second run finds nothing and leaves the query alone unless one of the conditions folds twice,
which is a list or a range of one value next to a literal that the value makes it hold for.  A third
run never finds anything. -/
theorem foldConstants_again (q : Query) :
    let once := q.foldConstants.query
    let twice := once.foldConstants.query
    (once.foldConstants.note = none ↔ ∀ c ∈ q.conditions, ¬ c.FoldsTwice) ∧
      (once.foldConstants.note = none → twice = once) ∧
        twice.foldConstants.note = none ∧ twice.foldConstants.query = twice := by
  have hthird : q.foldConstants.query.foldConstants.query.foldConstants.note = none := by
    rw [note_foldConstants_eq_none_iff, joins_foldConstants, joins_foldConstants, List.map_map,
      List.forall_mem_map]
    exact ⟨Condition.atRest_foldAll_foldAll _, Condition.atRest_foldAll_foldAll _,
      fun _ _ => Condition.atRest_foldAll_foldAll _⟩
  exact ⟨note_foldConstants_foldConstants_iff, foldConstants_of_note_eq_none, hthird,
    foldConstants_of_note_eq_none hthird⟩

/-- The orders for which 2 is not among the numbers 1. -/
def doubtfulOrders : Query where
  source := "orders"
  items := [.column ⟨"orders", "id", none⟩]
  filters := [⟨.literal (.integer 2), .notIn, .list [.integer 1]⟩]

/-- The first run makes a comparison of the list, and the second one drops it. -/
theorem foldConstants_again_doubtfulOrders_ne :
    doubtfulOrders.validate = .ok () ∧
      let once := doubtfulOrders.foldConstants.query
      once.filters = [⟨.literal (.integer 2), .notEq, .literal (.integer 1)⟩] ∧
        once.foldConstants.note = some "dropped always-true 2 <> 1" ∧
          once.foldConstants.query.filters = [] ∧ once.foldConstants.query ≠ once := by
  refine ⟨rfl, rfl, rfl, rfl, fun h => ?_⟩
  cases congrArg (fun q => q.filters.length) h

end Query

namespace Query

/-! ### Conditions pushed into joins -/

/-- Where a condition may be pushed does not depend on the conditions that are there. -/
theorem pushTarget?_pushDown (q : Query) (c : Condition) :
    q.pushDown.query.pushTarget? c = q.pushTarget? c := by
  have hadmits : ∀ table, q.pushDown.query.joins.map (fun j => j.admits table) =
      q.joins.map fun j => j.admits table := by
    intro table
    apply List.ext_getElem?
    intro i
    simp only [joins_pushDown, List.getElem?_map, List.getElem?_mapIdx, Option.map_map]
    rfl
  have hfind : ∀ (js : List Join) table, js.findIdx? (fun j => j.admits table) =
      (js.map fun j => j.admits table).findIdx? id := by
    intro js table
    rw [List.findIdx?_map]
    rfl
  simp only [pushTarget?, hfind, hadmits]

theorem pushDown_of_forall {q : Query} (h : ∀ c ∈ q.filters, q.pushTarget? c = none) :
    q.pushDown.query = q := by
  have hfilters : q.filters.filter (fun c => (q.pushTarget? c).isNone) = q.filters := by
    rw [List.filter_eq_self]
    intro c hc
    rw [h c hc]
    rfl
  have hpushed : ∀ i, q.filters.filter (fun c => q.pushTarget? c == some i) = [] := by
    intro i
    rw [List.filter_eq_nil_iff]
    intro c hc
    rw [h c hc]
    simp
  have hjoins : q.pushDown.query.joins = q.joins := by
    apply List.ext_getElem?
    intro i
    have hsame : ∀ j : Join, { j with conditions := j.conditions ++ [] } = j := by
      intro j
      cases j
      simp
    simp only [joins_pushDown, List.getElem?_mapIdx, hpushed, hsame]
    exact Option.map_id'
  cases q
  simp only [pushDown, hfilters] at hjoins ⊢
  rw [hjoins]

/-- What stays in the filter is not pushed the second time. -/
theorem pushDown_pushDown (q : Query) : q.pushDown.query.pushDown.query = q.pushDown.query := by
  apply pushDown_of_forall
  intro c hc
  have hstays : q.pushTarget? c = none := by
    simpa using (List.mem_filter.1 hc).2
  rw [pushTarget?_pushDown, hstays]

end Query

end AskSql
