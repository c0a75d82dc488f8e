import AskSql.Decimal.Whole
import AskSql.Reshape.Grouping

/-!
# Folded conditions

Conditions that say the same in fewer words: a comparison of literals that always holds is dropped,
a range of one value and a list of one value become comparisons, and a condition that stands
earlier in the list is dropped.
-/

namespace AskSql

/-- The order of two literals of one kind; whole numbers and floats are compared as floats. -/
def Literal.compare? : Literal → Literal → Option Ordering
  | .integer a, .integer b => some (compare a b)
  | .integer a, .float b => compareFloats? (Decimal.ofInt a) b
  | .float a, .integer b => compareFloats? a (Decimal.ofInt b)
  | .float a, .float b => compareFloats? a b
  | .text a, .text b | .date a, .date b => some (compareOfLessAndEq a b)
  | .boolean a, .boolean b => some (compare a b)
  | _, _ => none
where
  /-- The order of two floats that are numbers. -/
  compareFloats? (a b : Float) : Option Ordering :=
    if a < b then some .lt else if b < a then some .gt else if a == b then some .eq else none

/-- Whether the comparison holds of sides in this order, if it is one of the order. -/
def Comparison.holds? (c : Comparison) (o : Ordering) : Option Bool :=
  match c with
  | eq => some (o == .eq)
  | notEq => some (o != .eq)
  | lt => some (o == .lt)
  | ltEq => some (o != .gt)
  | gt => some (o == .gt)
  | gtEq => some (o != .lt)
  | _ => none

/-- Whether a comparison of two literals holds. -/
def Literal.evaluate? (a : Literal) (c : Comparison) (b : Literal) : Option Bool :=
  (a.compare? b).bind c.holds?

/-- What becomes of a condition. -/
inductive Folded where
  /-- It always holds. -/
  | dropped (note : String)
  | replaced (condition : Condition) (note : String)
  | kept

namespace Condition

/-- Folds a condition. -/
def fold (c : Condition) : Folded :=
  match c.lhs, c.op, c.rhs with
  | .literal a, op, .literal b =>
    if a.evaluate? op b == some true then
      .dropped ("dropped always-true " ++ a.describe ++ " " ++ op.sql ++ " " ++ b.describe)
    else .kept
  | lhs, .between, .range low high =>
    if low == high then
      .replaced ⟨lhs, .eq, .literal low⟩
        ("BETWEEN " ++ low.describe ++ " AND " ++ high.describe ++ " folded to equality")
    else .kept
  | lhs, .isIn, .list [v] =>
    .replaced ⟨lhs, .eq, .literal v⟩ "single-value IN folded to comparison"
  | lhs, .notIn, .list [v] =>
    .replaced ⟨lhs, .notEq, .literal v⟩ "single-value NOT IN folded to comparison"
  | _, _, _ => .kept

/-- Adds a condition to a list that does not have it, with notes on what was done before. -/
def addFolded (acc : List Condition × List String) (c : Condition) (notes : List String) :
    List Condition × List String :=
  if acc.1.contains c then (acc.1, acc.2 ++ notes ++ ["removed duplicate predicate"])
  else (acc.1 ++ [c], acc.2 ++ notes)

/-- Folds a condition and adds it to a list of folded ones. -/
def foldInto (acc : List Condition × List String) (c : Condition) :
    List Condition × List String :=
  match c.fold with
  | .dropped note => (acc.1, acc.2 ++ [note])
  | .replaced d note => addFolded acc d [note]
  | .kept => addFolded acc c []

/-- Folds a list of conditions: what remains, and notes on what was done. -/
def foldAll (cs : List Condition) : List Condition × List String :=
  cs.foldl foldInto ([], [])

end Condition

/-- Folds the conditions of a query. -/
def Query.foldConstants (q : Query) : Reshaped :=
  let filters := Condition.foldAll q.filters
  let having := Condition.foldAll q.having
  let joins := q.joins.map fun j =>
    let (conditions, notes) := Condition.foldAll j.conditions
    ({ j with conditions }, notes)
  { query :=
      { q with filters := filters.1, having := having.1, joins := joins.map Prod.fst }
    note := joinNotes "; " (filters.2 ++ having.2 ++ joins.flatMap Prod.snd) }

end AskSql
