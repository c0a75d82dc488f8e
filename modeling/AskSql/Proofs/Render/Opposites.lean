import AskSql.Proofs.Compose.Negation
import AskSql.Proofs.Render.Expressible
import AskSql.Render.Explain

/-!
# Opposite conditions in words

A condition is explained by its left side and what is said of it.  Where the right side is named,
the comparison is written out in front of it (`Condition.describe_of_named`), and the words for a
condition and for the opposite one differ in just this place.  The words for a missing value differ
as well.

The exception are days before today.  A date is said to lie within the last days whatever the
comparison, so the words for a date that lies further back are the words for one that does not
(`Condition.describe_negate_iff`), though the statements for the two differ.
-/

namespace AskSql

variable {d : Dialect} {parameterized : Bool}

/-- Comparisons are told apart by how they are written. -/
theorem Comparison.sql_injective : Function.Injective sql := by
  intro a b h
  cases a <;> cases b <;> first | rfl | exact absurd h (by decide)

/-- The comparison asks whether a value is missing, whatever stands on the right side. -/
def Comparison.isNullTest : Comparison → Bool
  | isNull | isNotNull => true
  | _ => false

theorem Comparison.isNullTest_negate (op : Comparison) : op.negate.isNullTest = op.isNullTest := by
  cases op <;> rfl

/-- The right side in words, where it is named behind the comparison. -/
def Comparand.named? : Comparand → Option String
  | .list vs => some (" (" ++ String.intercalate ", " (vs.map Literal.describe) ++ ")")
  | .literal v => some (" " ++ v.describe)
  | .column c => some (" " ++ c.path)
  | .subquery q => some (" a subquery over " ++ q.source)
  | .null | .daysAgo _ | .range .. => none

namespace Condition

/-- The text of a condition, behind some parameters. -/
def HasText (d : Dialect) (parameterized : Bool) (c : Condition) (text : String) : Prop :=
  ∃ params params', (d.condition parameterized c).run params = .ok (text, params')

variable {c : Condition} {lhs : Operand} {op : Comparison} {rhs : Comparand}

theorem HasText.expressible {text : String} (h : c.HasText d parameterized text) :
    c.Expressible d := by
  obtain ⟨params, params', h⟩ := h
  have hpieces : (d.condition parameterized c).run params = _ :=
    writes_condition d parameterized c params
  rw [h] at hpieces
  obtain ⟨s, hs, -⟩ := (Failure.map_eq_ok_iff _ _ _).1 hpieces.symm
  exact ⟨s, hs⟩

/-! ### What can be written -/

/-- Other than by a test, a column is compared with what is missing by equality only. -/
theorem Expressible.eq_or_notEq (h : Expressible d ⟨lhs, op, .null⟩)
    (htest : op.isNullTest = false) : op = .eq ∨ op = .notEq := by
  obtain ⟨-, -, right, hright⟩ := expressible_iff.1 h
  cases op
  case eq => exact .inl rfl
  case notEq => exact .inr rfl
  case isNull | isNotNull => cases htest
  all_goals cases hright

/-- Other than by a test, nothing is compared with a range but by its own comparison. -/
theorem Expressible.eq_between {low high : Literal}
    (h : Expressible d ⟨lhs, op, .range low high⟩) (htest : op.isNullTest = false) :
    op = .between := by
  obtain ⟨-, -, right, hright⟩ := expressible_iff.1 h
  cases op
  case between => rfl
  case isNull | isNotNull => cases htest
  all_goals cases hright

/-! ### The words -/

/-- The words for a test. -/
theorem describe_of_test (htest : op.isNullTest = true) :
    describe ⟨lhs, op, rhs⟩ =
      lhs.describe ++ (if op = .isNull then " is missing" else " is present") := by
  cases op
  case isNull | isNotNull => cases rhs <;> rfl
  all_goals cases htest

/-- The words for a comparison with a right side that is named. -/
theorem describe_of_named (htest : op.isNullTest = false) {words : String}
    (hwords : rhs.named? = some words) :
    describe ⟨lhs, op, rhs⟩ = lhs.describe ++ (" " ++ op.sql ++ words) := by
  cases rhs
  case null | daysAgo | range => cases hwords
  all_goals
    obtain rfl := Option.some.inj hwords
    cases op
    case isNull | isNotNull => cases htest
    all_goals simp only [describe, String.append_assoc]

/-- The words for a comparison with a day say nothing of the comparison. -/
theorem describe_daysAgo (htest : op.isNullTest = false) (days : Nat) :
    describe ⟨lhs, op, .daysAgo days⟩ = s!"{lhs.describe} within the last {days} days" := by
  cases op
  case isNull | isNotNull => cases htest
  all_goals rfl

/-- The words for a condition that can be written in a dialect are the words for the opposite one if
and only if the two compare with a day before today, and do not just ask whether there is a
value. -/
theorem describe_negate_iff {text : String} (hop : c.op.negate ≠ c.op)
    (h : c.HasText d parameterized text) :
    c.negate.describe = c.describe ↔ c.isRelativeDate = true ∧ c.op.isNullTest = false := by
  obtain ⟨lhs, op, rhs⟩ := c
  have hnegate := Comparison.isNullTest_negate op
  cases htest : op.isNullTest with
  | true =>
      rw [htest] at hnegate
      refine iff_of_false (fun hsame => ?_) fun hfalse => Bool.false_ne_true hfalse.2.symm
      rw [negate, describe_of_test hnegate, describe_of_test htest,
        String.append_right_inj] at hsame
      cases op
      case isNull | isNotNull => exact absurd hsame (by decide)
      all_goals cases htest
  | false =>
      rw [htest] at hnegate
      cases hwords : rhs.named? with
      | some words =>
          have hplain : isRelativeDate ⟨lhs, op, rhs⟩ = false := by
            cases rhs
            case daysAgo => cases hwords
            all_goals rfl
          simp only [negate, describe_of_named htest hwords, describe_of_named hnegate hwords,
            String.append_right_inj, String.append_left_inj, hplain, Bool.false_eq_true,
            false_and, iff_false]
          exact fun hsame => hop (Comparison.sql_injective hsame)
      | none =>
          cases rhs
          case null =>
            obtain rfl | rfl := h.expressible.eq_or_notEq htest <;>
              simp [negate, Comparison.negate, describe, isRelativeDate]
          case range low high =>
            obtain rfl := h.expressible.eq_between htest
            exact absurd rfl hop
          case daysAgo days =>
            exact iff_of_true
              ((describe_daysAgo hnegate days).trans (describe_daysAgo htest days).symm) ⟨rfl, rfl⟩
          all_goals cases hwords

/-- Orders whose status is one of two. -/
def settledOrders : Condition :=
  ⟨.column ⟨"orders", "status", none⟩, .isIn, .list [.text "paid", .text "sent"]⟩

/-- The opposite condition is written as well, and the words for it are others. -/
theorem describe_negate_settledOrders :
    settledOrders.HasText .postgres false "\"orders\".\"status\" IN ('paid', 'sent')" ∧
      settledOrders.negate.HasText .postgres false
        "\"orders\".\"status\" NOT IN ('paid', 'sent')" ∧
      settledOrders.op.negate ≠ settledOrders.op ∧
      settledOrders.describe = "orders.status IN ('paid', 'sent')" ∧
      settledOrders.negate.describe ≠ settledOrders.describe := by
  have hop : settledOrders.op.negate ≠ settledOrders.op := by decide
  have htext : settledOrders.HasText .postgres false
      "\"orders\".\"status\" IN ('paid', 'sent')" := ⟨[], [], rfl⟩
  refine ⟨htext, ⟨[], [], rfl⟩, hop, by decide, fun hsame => ?_⟩
  exact absurd ((describe_negate_iff hop htext).1 hsame).1 (by decide)

/-- Orders of the last thirty days. -/
def recentOrders : Condition :=
  ⟨.column ⟨"orders", "order_date", none⟩, .gtEq, .daysAgo 30⟩

/-- Orders that are older are written with the opposite comparison, and explained in the same
words. -/
theorem describe_negate_recentOrders :
    recentOrders.HasText .postgres false
        "\"orders\".\"order_date\" >= CURRENT_DATE - INTERVAL '30 days'" ∧
      recentOrders.negate.HasText .postgres false
        "\"orders\".\"order_date\" < CURRENT_DATE - INTERVAL '30 days'" ∧
      recentOrders.op.negate ≠ recentOrders.op ∧
      recentOrders.describe = "orders.order_date within the last 30 days" ∧
      recentOrders.negate.describe = recentOrders.describe :=
  ⟨⟨[], [], rfl⟩, ⟨[], [], rfl⟩, by decide, by decide, by decide⟩

end Condition
end AskSql
