import AskSql.Proofs.Compose.Conditions
import AskSql.Proofs.Query.Truth

/-!
# Negated comparisons of a question

Behind `not` a comparison becomes the condition with the opposite operator
(`ConditionPart.condition_not`).  Where a database decides the comparisons of the values that are
there, this one fails where the other one holds (`Assignment.Decides.truth_negate`), and neither of
the two is unknown unless a value is missing (`Comparison.Becomes.truth_ne_unknown`).  So one of the
two holds where the other one does not (`Condition.ofParts_not`).

A range is the exception.  No operator is opposite to `between`, and the condition behind `not` is
the one without it (`Condition.ofParts_not_range`).
-/

namespace AskSql

/-! ### Opposite truths -/

@[simp] theorem Truth.not_not (t : Truth) : t.not.not = t := by
  cases t <;> rfl

theorem Truth.ofBool_ne_unknown (b : Bool) : ofBool b ≠ .unknown := by
  cases b <;> decide

theorem Truth.not_ne_unknown {t : Truth} (h : t ≠ .unknown) : t.not ≠ .unknown := by
  cases t with
  | holds => decide
  | fails => decide
  | unknown => exact absurd rfl h

/-- What is known holds or fails. -/
theorem Truth.not_eq_holds_iff {t : Truth} (h : t ≠ .unknown) : t.not = .holds ↔ t ≠ .holds := by
  cases t with
  | holds => decide
  | fails => decide
  | unknown => exact absurd rfl h

/-- Of ordered values the opposite comparison holds where the other one does not. -/
theorem Outcome.truth_negate (o : Ordering) (op : Comparison) :
    (ordered o).truth op.negate = ((ordered o).truth op).not := by
  cases op <;> cases o <;> rfl

/-- The values on the right side. -/
def RightValue.values : RightValue → List (Option Value)
  | .one x => [x]
  | .several xs => xs
  | .range low high => [low, high]
  | .null => []

/-- The condition with the opposite comparison. -/
def Condition.negate (c : Condition) : Condition :=
  { c with op := c.op.negate }

namespace Assignment

/-- Comparisons of values that are there are decided: any two are ordered, and a pattern fits or
does not. -/
structure Decides (A : Assignment) : Prop where
  orders : ∀ x y, ∃ o, A.across x y = .ordered o
  fits : ∀ x y, A.fits .like x y ≠ .unknown
  misfits : ∀ x y, A.fits .notLike x y = (A.fits .like x y).not

/-- The values that a condition compares. -/
def compared (A : Assignment) (c : Condition) : List (Option Value) :=
  A.operand c.lhs :: (A.comparand c.rhs).values

section Opposites

variable {A : Assignment} {op : Comparison}

theorem Decides.exists_compare (h : A.Decides) (x y : Value) :
    ∃ o, A.compare x y = .ordered o := by
  unfold compare
  split
  case h_6 => exact h.orders x y
  all_goals exact ⟨_, rfl⟩

/-- Values that are missing make both comparisons unknown. -/
theorem Decides.relate_negate (h : A.Decides) (hop : op ≠ .iLike) (x y : Option Value) :
    A.relate op.negate x y = (A.relate op x y).not := by
  cases x with
  | none => rfl
  | some x =>
      cases y with
      | none => rfl
      | some y =>
          have hordered : (A.compare x y).truth op.negate = ((A.compare x y).truth op).not := by
            obtain ⟨o, ho⟩ := h.exists_compare x y
            rw [ho, Outcome.truth_negate]
          cases op
          case like => exact h.misfits x y
          case notLike =>
            change A.fits .like x y = (A.fits .notLike x y).not
            rw [h.misfits, Truth.not_not]
          case iLike => exact absurd rfl hop
          all_goals exact hordered

theorem Decides.relateTo_negate (h : A.Decides) (hlike : op ≠ .iLike) (hrange : op ≠ .between)
    (x : Option Value) (right : RightValue) :
    A.relateTo x op.negate right = (A.relateTo x op right).not := by
  cases op
  case between => exact absurd rfl hrange
  case isNull => cases x <;> rfl
  case isNotNull => cases x <;> rfl
  case isIn => rfl
  case notIn => exact (Truth.not_not _).symm
  case eq =>
    cases right
    case null => cases x <;> rfl
    all_goals exact h.relate_negate hlike x _
  case notEq =>
    cases right
    case null => cases x <;> rfl
    all_goals exact h.relate_negate hlike x _
  all_goals exact h.relate_negate hlike x right.single

/-- The opposite condition holds where the condition itself fails. -/
theorem Decides.truth_negate (h : A.Decides) {c : Condition} (hlike : c.op ≠ .iLike)
    (hrange : c.op ≠ .between) : A.truth c.negate = (A.truth c).not :=
  h.relateTo_negate hlike hrange _ _

/-- A comparison of two values that are there is decided. -/
theorem Decides.relateTo_one_ne_unknown (h : A.Decides) (hlike : op ≠ .iLike)
    (hrange : op ≠ .between) (x y : Value) :
    A.relateTo (some x) op (.one (some y)) ≠ .unknown := by
  obtain ⟨o, ho⟩ := h.exists_compare x y
  cases op
  case between => exact absurd rfl hrange
  case iLike => exact absurd rfl hlike
  case like => exact h.fits x y
  case notLike =>
    change A.fits .notLike x y ≠ .unknown
    rw [h.misfits]
    exact Truth.not_ne_unknown (h.fits x y)
  case isNull => exact Truth.ofBool_ne_unknown _
  case isNotNull => exact Truth.ofBool_ne_unknown _
  all_goals
    simp only [relateTo, relate, RightValue.single, RightValue.choices, List.map_cons,
      List.map_nil, ho]
    cases o <;> decide

end Opposites

theorem exists_comparand_eq_one (A : Assignment) {rhs : Comparand} (h : rhs.IsSingle) :
    ∃ x, A.comparand rhs = .one x := by
  cases rhs
  case literal => exact ⟨_, rfl⟩
  case daysAgo => exact ⟨_, rfl⟩
  case column => exact ⟨_, rfl⟩
  all_goals cases h

end Assignment

/-! ### Conditions with the opposite comparison -/

section Becoming

variable {op op' : Comparison} {kind : EntityKind} {rhs : Comparand} {s : Schema}
  {t t' : JoinTree} {part : ConditionPart}

/-- A comparison of a question, a range apart, is decided where no value is missing, and a test for
null is decided everywhere. -/
theorem Comparison.Becomes.truth_ne_unknown {A : Assignment} (h : op.Becomes kind op' rhs)
    (hdecides : A.Decides) (hlike : op ≠ .iLike) (hrange : op' ≠ .between) {lhs : Operand}
    (hthere : rhs = .null ∨ none ∉ A.compared ⟨lhs, op', rhs⟩) :
    A.truth ⟨lhs, op', rhs⟩ ≠ .unknown := by
  cases h with
  | isNull => exact Truth.ofBool_ne_unknown _
  | isNotNull => exact Truth.ofBool_ne_unknown _
  | single hkind hrhs =>
      obtain ⟨y, hy⟩ := A.exists_comparand_eq_one hrhs
      have hvalues : none ∉ A.compared ⟨lhs, op, rhs⟩ := by
        rcases hthere with rfl | hthere
        · cases hrhs
        · exact hthere
      rw [Assignment.compared, hy] at hvalues
      change A.relateTo (A.operand lhs) op (A.comparand rhs) ≠ .unknown
      rw [hy]
      -- both values are there, so they are compared
      cases hx : A.operand lhs with
      | none => simp [hx] at hvalues
      | some x =>
          cases y with
          | none => simp [RightValue.values] at hvalues
          | some y => exact hdecides.relateTo_one_ne_unknown hlike hrange x y
  | range => exact absurd rfl hrange

/-- The comparison asks for a range.  With `null` as its value it is a test for null. -/
def ConditionPart.IsRange (part : ConditionPart) : Prop :=
  part.operator = "between" ∧ part.valueKind ≠ some .null

/-- What a comparison without a modifier becomes: a condition on a column that is decided where no
value is missing, unless it asks for a range. -/
theorem ConditionPart.of_condition {c : Condition}
    (h : { part with modifier := none }.condition s t = (some c, t')) :
    (∃ r, c.lhs = .column r) ∧ c.op ≠ .iLike ∧ (c.op = .between ↔ part.IsRange) ∧
      ∀ A : Assignment, A.Decides → c.op ≠ .between → (c.rhs = .null ∨ none ∉ A.compared c) →
        A.truth c ≠ .unknown := by
  obtain ⟨op, column, _, value, kind, op', rhs, hop, -, -, hkind, hcomparison, rfl⟩ :=
    ConditionPart.condition_eq_some_iff.1 h
  obtain ⟨hlike, hsymbol⟩ := Comparison.lookup_symbols hop
  have hbecomes := becomes_of_comparison? hcomparison
  have hrange : op' = .between ↔ part.IsRange := by
    have hvalue : part.valueKind = some kind := hkind
    rw [hbecomes.eq_between_iff, hsymbol, IsRange, hvalue, ne_eq, ne_eq, Option.some_inj]
  exact ⟨⟨column, rfl⟩, hbecomes.ne_iLike hlike, hrange, fun A hdecides hother hthere =>
    hbecomes.truth_ne_unknown hdecides hlike hother hthere⟩

/-- Behind `not`, a comparison becomes the opposite condition, and the same tables are joined. -/
theorem ConditionPart.condition_not {c : Condition}
    (h : { part with modifier := none }.condition s t = (some c, t')) :
    { part with modifier := some "not" }.condition s t = (some c.negate, t') := by
  obtain ⟨op, column, u, value, kind, op', rhs, hop, hcolumn, hvalue, hkind, hcomparison, rfl⟩ :=
    ConditionPart.condition_eq_some_iff.1 h
  exact ConditionPart.condition_eq_some_iff.2
    ⟨op, column, u, value, kind, op', rhs, hop, hcolumn, hvalue, hkind, hcomparison, rfl⟩

end Becoming

namespace Condition

/-- A range is its own opposite. -/
theorem negate_eq_self {c : Condition} (h : c.op = .between) : c.negate = c := by
  obtain ⟨lhs, op, rhs⟩ := c
  obtain rfl : op = .between := h
  rfl

/-- A comparison that becomes one condition behind `not` and one condition without it, on any schema
and any join tree.  Both are on the same column and the same right side, with the same tables
joined.  Wherever comparisons are decided and no value that is compared is missing, and everywhere
for a test for null, one of the two holds if and only if the other one does not, unless the
comparison asks for a range. -/
theorem ofParts_not {s : Schema} {t t₁ t₂ : JoinTree} {part : ConditionPart} {c d : Condition}
    (hnot : ofParts s [] t [{ part with modifier := some "not" }] = .ok ([c], t₁))
    (hplain : ofParts s [] t [{ part with modifier := none }] = .ok ([d], t₂)) :
    t₁ = t₂ ∧ (∃ r, c.lhs = .column r ∧ d.lhs = .column r) ∧ c.rhs = d.rhs ∧
      ∀ A : Assignment, A.Decides → (d.rhs = .null ∨ none ∉ A.compared d) →
        ((A.truth c = .holds ↔ A.truth d ≠ .holds) ↔ ¬ part.IsRange) := by
  have hcondition := (ofParts_singleton rfl).1 hplain
  have hopposite := (ofParts_singleton rfl).1 hnot
  rw [ConditionPart.condition_not hcondition] at hopposite
  obtain ⟨hc, rfl⟩ := Prod.mk.inj hopposite
  obtain rfl := Option.some.inj hc
  obtain ⟨⟨r, hr⟩, hlike, hrange, hknown⟩ := ConditionPart.of_condition hcondition
  refine ⟨rfl, ⟨r, hr, hr⟩, rfl, fun A hdecides hthere => ?_⟩
  rw [← hrange]
  by_cases hbetween : d.op = .between
  · rw [negate_eq_self hbetween]
    simp [hbetween, iff_not_self]
  · have hholds : A.truth d.negate = .holds ↔ A.truth d ≠ .holds := by
      rw [hdecides.truth_negate hlike hbetween]
      exact Truth.not_eq_holds_iff (hknown A hdecides hbetween hthere)
    exact iff_of_true hholds hbetween

/-- Orders with an amount. -/
def amountOrders : Schema where
  tables := [
    { name := "orders",
      columns := [.asPrimaryKey { name := "id", type := .integer },
        { name := "amount", type := .decimal }] }]

/-- An order of so much, which is also what every subquery gives, where days come in some order and
a pattern fits everything. -/
def orderOf (amount : Int) : Assignment where
  column r := if r.column = "amount" then some (.integer amount) else none
  aggregate _ := none
  month _ := none
  day _ := none
  rows _ := [some (.integer amount)]
  across _ _ := .ordered .lt
  fits op _ _ := if op = .notLike then .fails else .holds
  rows_congr _ _ _ := rfl

theorem decides_orderOf (amount : Int) : (orderOf amount).Decides where
  orders _ _ := ⟨.lt, rfl⟩
  fits _ _ := by simp [orderOf]
  misfits _ _ := rfl

/-- A comparison of the amount. -/
def amountPart (operator value : String) (high : Option String) : ConditionPart where
  column := some "amount"
  table := some "orders"
  operator
  value := some value
  valueKind := some .number
  high
  modifier := none

theorem column?_amountPart (operator value : String) (high : Option String) :
    (amountPart operator value high).column? amountOrders (.ofBase "orders") =
      some (⟨"orders", "amount", none⟩, .ofBase "orders") := by
  rfl

/-- An order of 100 is not above 100. -/
theorem ofParts_not_above :
    let part := amountPart ">" "100" none
    let c : Condition := ⟨.column ⟨"orders", "amount", none⟩, .ltEq, .literal (.integer 100)⟩
    let d : Condition := ⟨.column ⟨"orders", "amount", none⟩, .gt, .literal (.integer 100)⟩
    let t := JoinTree.ofBase "orders"
    ofParts amountOrders [] t [{ part with modifier := some "not" }] = .ok ([c], t) ∧
      ofParts amountOrders [] t [{ part with modifier := none }] = .ok ([d], t) ∧
      (orderOf 100).Decides ∧ none ∉ (orderOf 100).compared d ∧ ¬ part.IsRange ∧
      ((orderOf 100).truth c = .holds ↔ (orderOf 100).truth d ≠ .holds) := by
  intro part c d t
  have hcolumn := column?_amountPart ">" "100" none
  have hnot : ofParts amountOrders [] t [{ part with modifier := some "not" }] = .ok ([c], t) :=
    (ofParts_singleton rfl).2 (ConditionPart.condition_eq_some_iff.2
      ⟨.gt, _, t, "100", .number, .gt, _, rfl, hcolumn, rfl, rfl, rfl, rfl⟩)
  have hplain : ofParts amountOrders [] t [{ part with modifier := none }] = .ok ([d], t) :=
    (ofParts_singleton rfl).2 (ConditionPart.condition_eq_some_iff.2
      ⟨.gt, _, t, "100", .number, .gt, _, rfl, hcolumn, rfl, rfl, rfl, rfl⟩)
  have hdecides := decides_orderOf 100
  have hthere : none ∉ (orderOf 100).compared d := by
    simp [Assignment.compared, d, orderOf, Assignment.operand, Assignment.comparand,
      RightValue.values]
  have hrange : ¬ part.IsRange := fun h => absurd h.1 (by decide)
  obtain ⟨-, -, -, hopposite⟩ := ofParts_not hnot hplain
  exact ⟨hnot, hplain, hdecides, hthere, hrange, (hopposite _ hdecides (.inr hthere)).2 hrange⟩

/-- Behind `not`, a range is the range: an order of 3 satisfies both conditions. -/
theorem ofParts_not_range :
    let part := amountPart "between" "1" (some "5")
    let c : Condition :=
      ⟨.column ⟨"orders", "amount", none⟩, .between, .range (.integer 1) (.integer 5)⟩
    let t := JoinTree.ofBase "orders"
    ofParts amountOrders [] t [{ part with modifier := some "not" }] = .ok ([c], t) ∧
      ofParts amountOrders [] t [{ part with modifier := none }] = .ok ([c], t) ∧
      (orderOf 3).Decides ∧ none ∉ (orderOf 3).compared c ∧
      (orderOf 3).truth c = .holds := by
  intro part c t
  have hcolumn := column?_amountPart "between" "1" (some "5")
  have hnot : ofParts amountOrders [] t [{ part with modifier := some "not" }] = .ok ([c], t) :=
    (ofParts_singleton rfl).2 (ConditionPart.condition_eq_some_iff.2
      ⟨.between, _, t, "1", .number, .between, _, rfl, hcolumn, rfl, rfl, rfl, rfl⟩)
  have hplain : ofParts amountOrders [] t [{ part with modifier := none }] = .ok ([c], t) :=
    (ofParts_singleton rfl).2 (ConditionPart.condition_eq_some_iff.2
      ⟨.between, _, t, "1", .number, .between, _, rfl, hcolumn, rfl, rfl, rfl, rfl⟩)
  have hthere : none ∉ (orderOf 3).compared c := by
    simp [Assignment.compared, c, orderOf, Assignment.operand, Assignment.comparand,
      RightValue.values]
  exact ⟨hnot, hplain, decides_orderOf 3, hthere, rfl⟩

end Condition

end AskSql
