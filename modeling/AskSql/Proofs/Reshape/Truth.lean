import AskSql.Proofs.Query.Truth
import AskSql.Proofs.Reshape.Folding

/-!
# Folding keeps the truth

Dropping a comparison that holds, writing a list or a range of one value as a comparison, and
dropping what is repeated change nothing about whether the conditions of a list hold together,
whichever values are missing (`Query.foldConstants_keeps_truth`).  The one exception is a whole
number next to a float: folding rounds the whole number first, so that it may find them equal where
they are not.
-/

namespace AskSql

/-- A whole number next to a float, or the other way round. -/
def Condition.mixesNumbers (c : Condition) : Bool :=
  match c.lhs, c.rhs with
  | .literal (.integer _), .literal (.float _) | .literal (.float _), .literal (.integer _) => true
  | _, _ => false

theorem Decimal.cmp_extended_of_compareFloats? {x y : Float} {o : Ordering}
    (h : Literal.compare?.compareFloats? x y = some o) :
    x.isNaN = false ∧ y.isNaN = false ∧ cmp (extended x) (extended y) = o := by
  unfold Literal.compare?.compareFloats? at h
  -- smaller, larger or equal, and none of them with what is no number
  split at h
  · next hlt =>
      obtain ⟨hx, hy, hrank⟩ := (lt_iff x y).1 hlt
      obtain rfl := Option.some.inj h
      rw [cmp_eq_lt_iff, ← not_le, extended_le_iff hy hx]
      exact ⟨hx, hy, by omega⟩
  · split at h
    · next hlt =>
        obtain ⟨hy, hx, hrank⟩ := (lt_iff y x).1 hlt
        obtain rfl := Option.some.inj h
        rw [cmp_eq_gt_iff, ← not_le, extended_le_iff hx hy]
        exact ⟨hx, hy, by omega⟩
    · split at h
      · next hbeq =>
          obtain ⟨hx, hy, hrank⟩ := (beq_iff x y).1 hbeq
          obtain rfl := Option.some.inj h
          exact ⟨hx, hy, (cmp_eq_eq_iff _ _).2 (extended_congr hx hy hrank)⟩
      · cases h

section Truth

variable (A : Assignment)

/-- Two literals of one type are compared by their values. -/
theorem Assignment.compare_toValue {a b : Literal} {o : Ordering} (h : a.compare? b = some o)
    (hmix : (Condition.mk (.literal a) .eq (.literal b)).mixesNumbers = false) :
    A.compare a.toValue b.toValue = .ordered o := by
  cases a <;> cases b <;> simp only [Literal.compare?, Option.some.injEq, reduceCtorEq] at h
  case integer.float => cases hmix
  case float.integer => cases hmix
  case integer.integer m n =>
    rw [← h]
    exact congrArg _ (cmp_eq_compare m n)
  case float.float x y =>
    obtain ⟨hx, hy, hcmp⟩ := Decimal.cmp_extended_of_compareFloats? h
    simp only [Literal.toValue, hx, hy, Bool.false_eq_true, if_false, compare, hcmp]
  case boolean.boolean x y =>
    rw [← h]
    exact congrArg _ (cmp_eq_compare x y)
  all_goals
    rename_i s t
    rw [← h]
    exact congrArg _ ((cmp_eq_compare s t).trans (LinearOrder.compare_eq_compareOfLessAndEq s t))

/-- A comparison that is found to hold of two literals holds of any values in the same order. -/
theorem Assignment.relateTo_of_holds? {op : Comparison} {o : Ordering} {x y : Value}
    (h : op.holds? o = some true) (hxy : A.compare x y = .ordered o) :
    A.relateTo (some x) op (.one (some y)) = .holds := by
  have hrelate : A.relateTo (some x) op (.one (some y)) = (A.compare x y).truth op := by
    cases op <;> first | rfl | cases h
  rw [hrelate, hxy]
  cases op <;> cases o <;> first | rfl | cases h

namespace Condition

theorem AlwaysHolds.truth {c : Condition} (h : c.AlwaysHolds) (hmix : c.mixesNumbers = false) :
    A.truth c = .holds := by
  cases h with
  | @compare a b op heval =>
      obtain ⟨o, ho, hholds⟩ := Option.bind_eq_some_iff.1 heval
      exact A.relateTo_of_holds? hholds (A.compare_toValue ho hmix)

theorem Narrows.truth {c d : Condition} (h : c.Narrows d) : A.truth d = A.truth c := by
  cases h with
  | @range lhs low high hbeq =>
      change A.relate .eq (A.operand lhs) (some low.toValue) =
        (A.relate .gtEq (A.operand lhs) (some low.toValue)).and
          (A.relate .ltEq (A.operand lhs) (some high.toValue))
      -- both bounds are one value, and what is neither below nor above it is the same
      rw [← Literal.toValue_congr hbeq]
      cases A.operand lhs with
      | none => rfl
      | some x => exact (Outcome.truth_gtEq_and_ltEq _).symm
  | @isIn lhs v => exact (Truth.or_fails _).symm
  | @notIn lhs v =>
      change A.relate .notEq (A.operand lhs) (some v.toValue) =
        ((A.relate .eq (A.operand lhs) (some v.toValue)).or .fails).not
      rw [Truth.or_fails]
      cases A.operand lhs with
      | none => rfl
      | some x => rfl

/-- What remains of conditions holds when they do. -/
theorem all_filterMap_remainder? {cs : List Condition}
    (hmix : ∀ c ∈ cs, c.mixesNumbers = false) :
    A.all (cs.filterMap remainder?) = A.all cs := by
  induction cs with
  | nil => rfl
  | cons c cs ih =>
      rw [List.forall_mem_cons] at hmix
      have hrest := ih hmix.2
      obtain ⟨halways, hc⟩ | ⟨d, hd, hc⟩ | ⟨-, hc⟩ := c.remainder?_cases
      · rw [List.filterMap_cons_none hc, hrest, A.all_cons, halways.truth A hmix.1]
        rfl
      · rw [List.filterMap_cons_some hc, A.all_cons, A.all_cons, hrest, hd.truth A]
      · rw [List.filterMap_cons_some hc, A.all_cons, A.all_cons, hrest]

/-- Repetitions do not matter. -/
theorem all_foldl_addDistinct (cs kept : List Condition) :
    A.all (cs.foldl (addDistinct (· == ·)) kept) = (A.all kept).and (A.all cs) := by
  induction cs generalizing kept with
  | nil => exact (Truth.and_holds _).symm
  | cons c cs ih =>
      have hadd : A.all (addDistinct (· == ·) kept c) = (A.all kept).and (A.truth c) := by
        rw [addDistinct]
        split
        · next hany => exact (A.all_and_of_any hany).symm
        · rw [A.all_append, A.all_singleton]
      rw [List.foldl_cons, ih, hadd, Truth.and_assoc, ← A.all_cons]

/-- A folded list holds when the list does, fails when it does, and is unknown when it is. -/
theorem all_foldAll {cs : List Condition} (hmix : ∀ c ∈ cs, c.mixesNumbers = false) :
    A.all (foldAll cs).1 = A.all cs := by
  rw [fst_foldAll, all_foldl_addDistinct, all_filterMap_remainder? A hmix]
  rfl

end Condition

end Truth

namespace Query

/-- Folding changes lists of conditions and nothing else, and keeps the truth of each: of the
filter, of the filter of the groups, and of the conditions behind each join. -/
theorem foldConstants_keeps_truth {q : Query} (hmix : ∀ c ∈ q.conditions, c.mixesNumbers = false)
    (A : Assignment) :
    let p := q.foldConstants.query
    p = { q with joins := p.joins, filters := p.filters, having := p.having } ∧
      A.all p.filters = A.all q.filters ∧ A.all p.having = A.all q.having ∧
        List.Forall₂ (fun k j : Join =>
          k = { j with conditions := k.conditions } ∧ A.all k.conditions = A.all j.conditions)
          p.joins q.joins := by
  simp only [conditions, List.forall_mem_append, List.forall_mem_flatMap] at hmix
  obtain ⟨⟨hfilters, hhaving⟩, hjoins⟩ := hmix
  refine ⟨rfl, Condition.all_foldAll A hfilters, Condition.all_foldAll A hhaving, ?_⟩
  rw [joins_foldConstants, List.forall₂_map_left_iff, List.forall₂_same]
  exact fun j hj => ⟨rfl, Condition.all_foldAll A (hjoins j hj)⟩

/-- The orders that are paid, in more words than it takes. -/
def wordyOrders : Query where
  source := "orders"
  items := [.column ⟨"orders", "id", none⟩]
  filters := [
    ⟨.literal (.text "a"), .lt, .literal (.text "b")⟩,
    ⟨.column ⟨"orders", "status", none⟩, .isIn, .list [.text "paid"]⟩,
    ⟨.column ⟨"orders", "status", none⟩, .between, .range (.text "paid") (.text "paid")⟩]

/-- Every column says `paid`, and nothing else is known. -/
def onlyPaid : Assignment where
  column _ := some (.text "paid")
  aggregate _ := none
  month _ := none
  day _ := none
  rows _ := []
  across _ _ := .unknown
  fits _ _ _ := .unknown
  rows_congr _ _ _ := rfl

/-- One comparison is left of three conditions, and holds as they do. -/
theorem foldConstants_keeps_truth_wordyOrders :
    (∀ c ∈ wordyOrders.conditions, c.mixesNumbers = false) ∧
      let p := wordyOrders.foldConstants.query
      p.filters.length = 1 ∧ onlyPaid.all wordyOrders.filters = .holds ∧
        p = { wordyOrders with joins := p.joins, filters := p.filters, having := p.having } ∧
          onlyPaid.all p.filters = onlyPaid.all wordyOrders.filters ∧
            onlyPaid.all p.having = onlyPaid.all wordyOrders.having ∧
              List.Forall₂ (fun k j : Join => k = { j with conditions := k.conditions } ∧
                onlyPaid.all k.conditions = onlyPaid.all j.conditions)
                  p.joins wordyOrders.joins := by
  have hmix : ∀ c ∈ wordyOrders.conditions, c.mixesNumbers = false := by decide
  exact ⟨hmix, by decide +kernel, by decide +kernel, foldConstants_keeps_truth hmix onlyPaid⟩

end Query

end AskSql
