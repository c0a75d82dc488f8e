import AskSql.Query.Expression
import AskSql.Schema.Basic

/-!
# What the wordings stand for

Comparisons, aggregates, logical words, months and directions as they are worded in questions.  The
wordings are in small letters and written out.
-/

namespace AskSql.Wording

/-- Words that ask for less. -/
def asksForLess (wording : String) : Bool :=
  ["less", "fewer", "lower", "smaller"].any (containsText wording)

/-- Comparisons by their wordings. -/
def comparisons : List (String × String) :=
  [("=", "="), ("equal", "="), ("equals", "="), ("equal to", "="), ("equals to", "="),
    ("!=", "!="), ("<>", "!="), ("is not", "!="), ("not equal", "!="), ("not equal to", "!="),
    (">=", ">="), ("at least", ">="), ("since", ">="),
    ("<=", "<="), ("at most", "<="),
    (">", ">"), ("above", ">"), ("over", ">"), ("exceeds", ">"), ("exceed", ">"), ("after", ">"),
    ("<", "<"), ("below", "<"), ("under", "<"), ("before", "<"),
    ("between", "between"),
    ("like", "like"), ("contains", "like"), ("starts with", "like"), ("ends with", "like"),
    ("not like", "not like"), ("not in", "not in")]

/-- The comparison that a wording stands for. -/
def comparison? (wording : String) : Option String :=
  match comparisons.lookup wording with
  | some symbol => some symbol
  | none =>
    if containsText wording "than or equal" then
      some (if asksForLess wording then "<=" else ">=")
    else if Name.endsIn wording "than" then
      some (if asksForLess wording then "<" else ">")
    else none

/-- Aggregates by their wordings. -/
def aggregates : List (String × String) :=
  [("count", "count"), ("how many", "count"), ("number of", "count"), ("sum", "sum"),
    ("total", "sum"), ("average", "avg"), ("mean", "avg"), ("minimum", "min"), ("maximum", "max")]

/-- The aggregate that a wording stands for. -/
def aggregate? (wording : String) : Option String :=
  aggregates.lookup wording

/-- The logical word that a wording stands for. -/
def logical (wording : String) : String :=
  if wording == "or" then "or"
  else if wording == "not" || wording == "without" || wording == "except" then "not"
  else "and"

/-- The months in their order. -/
def months : List String :=
  ["january", "february", "march", "april", "may", "june", "july", "august", "september",
    "october", "november", "december"]

/-- The number of a month, from 1 to 12. -/
def month? (word : String) : Option Nat :=
  (months.findIdx? (· == word)).map (· + 1)

/-- The direction that a wording stands for. -/
def direction (word : String) : Direction :=
  if ["descending", "highest", "largest", "biggest", "most"].contains word then .desc else .asc

/-- The number of days of a unit of time. -/
def daysOfUnit (unit : String) : Nat :=
  if unit == "week" then 7
  else if unit == "month" then 30
  else if unit == "year" then 365
  else 1

/-- A count of units of time in days, at most as many as 32 bits hold. -/
def daysOf (count : Nat) (unit : String) : Nat :=
  min (count * daysOfUnit unit) (Nat.pow 2 32 - 1)

end AskSql.Wording
