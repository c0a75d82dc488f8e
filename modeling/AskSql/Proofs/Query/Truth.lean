import AskSql.Proofs.Decimal.Arithmetic
import AskSql.Query.Basic
import Mathlib.Data.String.Basic

/-!
# When conditions hold

A condition over values of which some may be missing holds, fails, or is neither known to hold nor
to fail, and the conditions of a list hold together as the truth of all of them says
(`Assignment.all`).  An assignment says which values the columns, the aggregates, the months, the
days and the subqueries of a query have, and leaves open what only a database can tell: how values
of different types compare, and which texts a pattern fits.  Literals stand for their values, so
conditions that are equal hold alike (`Assignment.truth_congr`).
-/

namespace AskSql

/-! ### Three truths -/

/-- Whether something holds, which need not be known. -/
inductive Truth where
  | holds | fails | unknown
  deriving DecidableEq, Repr

namespace Truth

/-- What is decided. -/
def ofBool (b : Bool) : Truth :=
  if b then holds else fails

/-- The opposite holds. -/
def not : Truth → Truth
  | holds => fails
  | fails => holds
  | unknown => unknown

/-- Both hold. -/
def and : Truth → Truth → Truth
  | holds, t => t
  | fails, _ => fails
  | unknown, fails => fails
  | unknown, _ => unknown

/-- One of the two holds. -/
def or : Truth → Truth → Truth
  | fails, t => t
  | holds, _ => holds
  | unknown, holds => holds
  | unknown, _ => unknown

/-- All hold. -/
def all (ts : List Truth) : Truth :=
  ts.foldr and holds

/-- One of them holds. -/
def any (ts : List Truth) : Truth :=
  ts.foldr or fails

@[simp] theorem and_holds (t : Truth) : t.and holds = t := by
  cases t <;> rfl

@[simp] theorem or_fails (t : Truth) : t.or fails = t := by
  cases t <;> rfl

theorem and_assoc (s t u : Truth) : (s.and t).and u = s.and (t.and u) := by
  cases s <;> cases t <;> cases u <;> rfl

theorem and_comm (s t : Truth) : s.and t = t.and s := by
  cases s <;> cases t <;> rfl

theorem and_self (t : Truth) : t.and t = t := by
  cases t <;> rfl

theorem all_append (ss ts : List Truth) : all (ss ++ ts) = (all ss).and (all ts) := by
  induction ss with
  | nil => rfl
  | cons s ss ih => exact (congrArg s.and ih).trans (and_assoc s _ _).symm

/-- What is among them already adds nothing. -/
theorem all_and_of_mem {t : Truth} {ts : List Truth} (h : t ∈ ts) : (all ts).and t = all ts := by
  induction ts with
  | nil => cases h
  | cons s ts ih =>
      change (s.and (all ts)).and t = s.and (all ts)
      obtain rfl | h := List.mem_cons.1 h
      · rw [and_comm t, and_assoc, and_self]
      · rw [and_assoc, ih h]

end Truth

/-! ### Values -/

/-- A value that is not missing. -/
inductive Value where
  | integer (value : Int)
  /-- A number that may be broken or infinite. -/
  | number (value : WithBot (WithTop ℚ))
  | notANumber
  | text (value : String)
  | boolean (value : Bool)
  | date (value : String)

/-- How two values compare. -/
inductive Outcome where
  | ordered (order : Ordering)
  /-- They differ, and neither comes first. -/
  | apart
  | unknown

namespace Outcome

/-- They are the same. -/
def same : Outcome → Truth
  | ordered o => .ofBool (o == .eq)
  | apart => .fails
  | unknown => .unknown

/-- The left one comes first. -/
def before : Outcome → Truth
  | ordered o => .ofBool (o == .lt)
  | apart => .fails
  | unknown => .unknown

/-- The right one comes first. -/
def after : Outcome → Truth
  | ordered o => .ofBool (o == .gt)
  | apart => .fails
  | unknown => .unknown

/-- The truth of a comparison of two values. -/
def truth (r : Outcome) : Comparison → Truth
  | .eq => r.same
  | .notEq => r.same.not
  | .lt => r.before
  | .ltEq => r.before.or r.same
  | .gt => r.after
  | .gtEq => r.after.or r.same
  | _ => .unknown

/-- What is neither smaller nor larger is the same. -/
theorem truth_gtEq_and_ltEq (r : Outcome) : (r.truth .gtEq).and (r.truth .ltEq) = r.truth .eq := by
  cases r with
  | ordered o => cases o <;> rfl
  | apart => rfl
  | unknown => rfl

end Outcome

/-- The value of a literal. -/
def Literal.toValue : Literal → Value
  | .integer n => .integer n
  | .float x => if x.isNaN then .notANumber else .number (Decimal.extended x)
  | .text s => .text s
  | .boolean b => .boolean b
  | .date s => .date s

/-! ### Assignments -/

/-- The values that the parts of a query have, some of them missing, and what a database makes of
values of different types, of what is not a number, and of patterns. -/
structure Assignment where
  column : Reference → Option Value
  aggregate : Aggregate → Option Value
  month : Reference → Option Value
  /-- The day so many days before today. -/
  day : Nat → Option Value
  /-- The values that a subquery gives. -/
  rows : Query → List (Option Value)
  /-- How other values compare than two whole numbers, two numbers, two texts and so on. -/
  across : Value → Value → Outcome
  /-- The truth of a comparison with a pattern. -/
  fits : Comparison → Value → Value → Truth
  /-- Equal subqueries give the same. -/
  rows_congr : ∀ p q, (p == q) = true → rows p = rows q

/-- The right side of a condition, evaluated. -/
inductive RightValue where
  | one (value : Option Value)
  | several (values : List (Option Value))
  | range (low high : Option Value)
  | null

namespace RightValue

/-- The value with which the left side is compared. -/
def single : RightValue → Option Value
  | one x => x
  | several xs => xs.head?.join
  | range .. | null => none

/-- The values among which the left side is looked for. -/
def choices : RightValue → List (Option Value)
  | several xs => xs
  | right => [right.single]

end RightValue

namespace Assignment

variable (A : Assignment)

/-- The value of the left side. -/
def operand : Operand → Option Value
  | .column c => A.column c
  | .aggregate a => A.aggregate a
  | .monthOf c => A.month c
  | .literal v => some v.toValue

/-- The values of the right side. -/
def comparand : Comparand → RightValue
  | .literal v => .one (some v.toValue)
  | .list vs => .several (vs.map fun v => some v.toValue)
  | .range low high => .range (some low.toValue) (some high.toValue)
  | .null => .null
  | .daysAgo n => .one (A.day n)
  | .column c => .one (A.column c)
  | .subquery q => .several (A.rows q)

/-- How two values compare: those of one type by what they are, texts and days character by
character. -/
def compare : Value → Value → Outcome
  | .integer a, .integer b => .ordered (cmp a b)
  | .number a, .number b => .ordered (cmp a b)
  | .text a, .text b | .date a, .date b => .ordered (cmp a b)
  | .boolean a, .boolean b => .ordered (cmp a b)
  | x, y => A.across x y

/-- The truth of a comparison, unknown where a value is missing. -/
def relate (c : Comparison) : Option Value → Option Value → Truth
  | some x, some y =>
    match c with
    | .like | .iLike | .notLike => A.fits c x y
    | _ => (A.compare x y).truth c
  | _, _ => .unknown

/-- The truth of a condition whose sides have been evaluated. -/
def relateTo (x : Option Value) (op : Comparison) (right : RightValue) : Truth :=
  match op, right with
  -- a statement asks whether a value is missing where it would compare it with null
  | .isNull, _ | .eq, .null => .ofBool x.isNone
  | .isNotNull, _ | .notEq, .null => .ofBool x.isSome
  | .isIn, right => .any (right.choices.map (A.relate .eq x))
  | .notIn, right => (Truth.any (right.choices.map (A.relate .eq x))).not
  | .between, .range low high => (A.relate .gtEq x low).and (A.relate .ltEq x high)
  | op, right => A.relate op x right.single

/-- The truth of a condition. -/
def truth (c : Condition) : Truth :=
  A.relateTo (A.operand c.lhs) c.op (A.comparand c.rhs)

/-- The truth of all conditions of a list together. -/
def all (cs : List Condition) : Truth :=
  .all (cs.map A.truth)

end Assignment

/-! ### Equal conditions hold alike -/

theorem Literal.toValue_congr {v w : Literal} (h : (v == w) = true) : v.toValue = w.toValue := by
  change v.beq w = true at h
  cases v <;> cases w <;> simp only [beq, Bool.false_eq_true, beq_iff_eq] at h
  case float.float x y =>
    obtain ⟨hx, hy, hrank⟩ := (Decimal.beq_iff x y).1 h
    simp only [toValue, hx, hy, Decimal.extended_congr hx hy hrank]
  all_goals rw [h]

theorem Literal.map_toValue_congr {vs ws : List Literal} (h : (vs == ws) = true) :
    vs.map (fun v => some v.toValue) = ws.map fun w => some w.toValue := by
  induction vs generalizing ws with
  | nil =>
      cases ws with
      | nil => rfl
      | cons w ws => cases h
  | cons v vs ih =>
      cases ws with
      | nil => cases h
      | cons w ws =>
          rw [List.cons_beq_cons, Bool.and_eq_true] at h
          rw [List.map_cons, List.map_cons, toValue_congr h.1, ih h.2]

namespace Assignment

variable (A : Assignment)

theorem operand_congr {a b : Operand} (h : (a == b) = true) : A.operand a = A.operand b := by
  change a.beq b = true at h
  cases a <;> cases b <;> simp only [Operand.beq, Bool.false_eq_true, beq_iff_eq] at h
  case literal.literal => rw [operand, operand, Literal.toValue_congr h]
  all_goals rw [h]

theorem comparand_congr {r s : Comparand} (h : (r == s) = true) :
    A.comparand r = A.comparand s := by
  change r.beq s = true at h
  -- sides of two kinds are not equal
  cases r <;> cases s <;>
    simp only [Comparand.beq, Bool.false_eq_true, Bool.and_eq_true, beq_iff_eq] at h
  case literal.literal => rw [comparand, comparand, Literal.toValue_congr h]
  case list.list => rw [comparand, comparand, Literal.map_toValue_congr h]
  case range.range =>
    rw [comparand, comparand, Literal.toValue_congr h.1, Literal.toValue_congr h.2]
  case null.null => rfl
  case daysAgo.daysAgo => rw [h]
  case column.column => rw [h]
  case subquery.subquery => rw [comparand, comparand, A.rows_congr _ _ h]

/-- Equal conditions hold alike. -/
theorem truth_congr {c d : Condition} (h : (c == d) = true) : A.truth c = A.truth d := by
  obtain ⟨lhs, op, rhs⟩ := c
  obtain ⟨lhs', op', rhs'⟩ := d
  change Condition.beq _ _ = true at h
  rw [Condition.beq, Bool.and_eq_true, Bool.and_eq_true] at h
  obtain ⟨⟨hlhs, hop⟩, hrhs⟩ := h
  rw [truth, truth, A.operand_congr hlhs, eq_of_beq hop, A.comparand_congr hrhs]

theorem all_cons (c : Condition) (cs : List Condition) :
    A.all (c :: cs) = (A.truth c).and (A.all cs) := rfl

theorem all_singleton (c : Condition) : A.all [c] = A.truth c :=
  Truth.and_holds _

theorem all_append (cs ds : List Condition) : A.all (cs ++ ds) = (A.all cs).and (A.all ds) := by
  rw [all, List.map_append, Truth.all_append]
  rfl

/-- A condition that equals one of the list adds nothing to it. -/
theorem all_and_of_any {cs : List Condition} {c : Condition} (h : cs.any (c == ·) = true) :
    (A.all cs).and (A.truth c) = A.all cs := by
  obtain ⟨d, hd, hcd⟩ := List.any_eq_true.1 h
  rw [A.truth_congr hcd]
  exact Truth.all_and_of_mem (List.mem_map_of_mem hd)

end Assignment

end AskSql
