import AskSql.Decimal.Notation
import AskSql.Text.Ascii

/-!
# The parts of a query that hold no other query

References to columns, aggregates over them, literals, and the comparisons between the two sides
of a condition.  Two references name the same column when table and column agree with the case of
ASCII letters set aside; the label plays no part in that.
-/

namespace AskSql

/-- A reference to a column of a table, under a label if it has one.  The column `*` stands for
all columns of the table. -/
structure Reference where
  table : String
  column : String
  label : Option String := none
  deriving DecidableEq, Repr, Inhabited

namespace Reference

/-- All columns of a table. -/
def star (table : String) : Reference :=
  ⟨table, "*", none⟩

/-- It stands for all columns of its table. -/
def isStar (r : Reference) : Bool :=
  r.column == "*"

/-- It names the same column as another reference. -/
def sameColumn (r s : Reference) : Bool :=
  Text.sameFold r.table s.table && Text.sameFold r.column s.column

/-- The reference without its label. -/
def unlabelled (r : Reference) : Reference :=
  ⟨r.table, r.column, none⟩

/-- Table and column with a point between them. -/
def path (r : Reference) : String :=
  r.table ++ "." ++ r.column

/-- The table of the reference, with the case of ASCII letters set aside. -/
def tableKey (r : Reference) : String :=
  Text.lower r.table

/-- A reference that names `source` names `target` instead. -/
def renameTable (source target : String) (r : Reference) : Reference :=
  if Text.sameFold r.table source then { r with table := target } else r

@[simp] theorem sameColumn_self (r : Reference) : r.sameColumn r = true := by
  simp [sameColumn]

theorem sameColumn_iff {r s : Reference} :
    r.sameColumn s = true ↔
      Text.lower r.table = Text.lower s.table ∧ Text.lower r.column = Text.lower s.column := by
  simp [sameColumn, Text.sameFold]

theorem sameColumn_comm (r s : Reference) : r.sameColumn s = s.sameColumn r := by
  rw [Bool.eq_iff_iff, sameColumn_iff, sameColumn_iff]
  exact ⟨fun h => ⟨h.1.symm, h.2.symm⟩, fun h => ⟨h.1.symm, h.2.symm⟩⟩

theorem sameColumn_trans {r s t : Reference} (h : r.sameColumn s = true)
    (h' : s.sameColumn t = true) : r.sameColumn t = true := by
  rw [sameColumn_iff] at h h' ⊢
  exact ⟨h.1.trans h'.1, h.2.trans h'.2⟩

end Reference

/-- A function that makes one value of many. -/
inductive AggregateFunction where
  | count | sum | avg | min | max
  deriving DecidableEq, Repr

namespace AggregateFunction

/-- The name of the function in a statement. -/
def sqlName : AggregateFunction → String
  | count => "COUNT"
  | sum => "SUM"
  | avg => "AVG"
  | min => "MIN"
  | max => "MAX"

/-- The names under which a function is asked for, in small letters. -/
def names : List (String × AggregateFunction) :=
  [("count", count), ("sum", sum), ("total", sum), ("avg", avg), ("average", avg), ("mean", avg),
    ("min", min), ("minimum", min), ("max", max), ("maximum", max)]

/-- The function of a name, in any case. -/
def ofName? (name : String) : Option AggregateFunction :=
  names.lookup (Text.lower name)

end AggregateFunction

/-- The four operations of arithmetic. -/
inductive Arithmetic where
  | add | subtract | multiply | divide
  deriving DecidableEq, Repr

/-- The sign of the operation. -/
def Arithmetic.symbol : Arithmetic → String
  | add => "+"
  | subtract => "-"
  | multiply => "*"
  | divide => "/"

/-- What an aggregate is taken over. -/
inductive Argument where
  | column (column : Reference)
  | arithmetic (left : Reference) (op : Arithmetic) (right : Reference)
  /-- A piece of a statement that is written as it stands. -/
  | raw (sql : String)
  deriving DecidableEq, Repr

/-- The references of an argument. -/
def Argument.references : Argument → List Reference
  | column c => [c]
  | arithmetic left _ right => [left, right]
  | raw _ => []

/-- An aggregate, under a label if it has one. -/
structure Aggregate where
  function : AggregateFunction
  argument : Argument
  label : Option String := none
  distinct : Bool := false
  deriving DecidableEq, Repr

namespace Aggregate

/-- The number of rows of a table. -/
def countRows (table : String) (label : Option String := none) : Aggregate :=
  { function := .count, argument := .column (.star table), label }

/-- The references of an aggregate. -/
def references (a : Aggregate) : List Reference :=
  a.argument.references

/-- It computes the same as another aggregate, whatever the two are called. -/
def sameExpression (a b : Aggregate) : Bool :=
  a.function == b.function && a.distinct == b.distinct && a.argument == b.argument

end Aggregate

/-- An item of the list that a query selects. -/
inductive Item where
  | column (column : Reference)
  | aggregate (aggregate : Aggregate)
  deriving DecidableEq, Repr

namespace Item

/-- The references of an item. -/
def references : Item → List Reference
  | column c => [c]
  | aggregate a => a.references

/-- The reference that an item is. -/
def column? : Item → Option Reference
  | column c => some c
  | aggregate _ => none

/-- The aggregate that an item is. -/
def aggregate? : Item → Option Aggregate
  | aggregate a => some a
  | column _ => none

/-- The item is an aggregate. -/
def isAggregate (i : Item) : Bool :=
  i.aggregate?.isSome

end Item

/-- A value written out in a query. -/
inductive Literal where
  | integer (value : Int)
  | float (value : Float)
  | text (value : String)
  | boolean (value : Bool)
  /-- A day as year, month and day with hyphens. -/
  | date (value : String)
  deriving Repr

namespace Literal

/-- Equality of literals; that of floats is the equality of numbers. -/
def beq : Literal → Literal → Bool
  | integer a, integer b => a == b
  | float a, float b => a == b
  | text a, text b => a == b
  | boolean a, boolean b => a == b
  | date a, date b => a == b
  | _, _ => false

instance : BEq Literal := ⟨beq⟩

/-- The literal in words: texts and days between quotation marks, floats positionally. -/
def describe : Literal → String
  | integer n => toString n
  | float x => Decimal.positional x
  | text s | date s => "'" ++ s ++ "'"
  | boolean true => "true"
  | boolean false => "false"

end Literal

/-- The left side of a condition. -/
inductive Operand where
  | column (column : Reference)
  | aggregate (aggregate : Aggregate)
  /-- The number of the month, from 1 to 12, of a date. -/
  | monthOf (column : Reference)
  | literal (value : Literal)
  deriving Repr

namespace Operand

/-- The references of an operand. -/
def references : Operand → List Reference
  | column c | monthOf c => [c]
  | aggregate a => a.references
  | literal _ => []

/-- Equality of operands. -/
def beq : Operand → Operand → Bool
  | column a, column b => a == b
  | aggregate a, aggregate b => a == b
  | monthOf a, monthOf b => a == b
  | literal a, literal b => a == b
  | _, _ => false

instance : BEq Operand := ⟨beq⟩

/-- The operand is an aggregate. -/
def isAggregate : Operand → Bool
  | aggregate _ => true
  | _ => false

end Operand

/-- How the two sides of a condition are compared. -/
inductive Comparison where
  | eq | notEq | lt | ltEq | gt | gtEq | like | iLike | notLike | isIn | notIn | between
  | isNull | isNotNull
  deriving DecidableEq, Repr

namespace Comparison

/-- The comparison in a statement. -/
def sql : Comparison → String
  | eq => "="
  | notEq => "<>"
  | lt => "<"
  | ltEq => "<="
  | gt => ">"
  | gtEq => ">="
  | like => "LIKE"
  | iLike => "ILIKE"
  | notLike => "NOT LIKE"
  | isIn => "IN"
  | notIn => "NOT IN"
  | between => "BETWEEN"
  | isNull => "IS NULL"
  | isNotNull => "IS NOT NULL"

/-- It holds of unequal sides. -/
def isInequality : Comparison → Bool
  | notEq | lt | ltEq | gt | gtEq => true
  | _ => false

/-- The comparison that holds when this one does not; `between` has none. -/
def negate : Comparison → Comparison
  | eq => notEq
  | notEq => eq
  | lt => gtEq
  | ltEq => gt
  | gt => ltEq
  | gtEq => lt
  | like | iLike => notLike
  | notLike => like
  | isIn => notIn
  | notIn => isIn
  | between => between
  | isNull => isNotNull
  | isNotNull => isNull

end Comparison

/-- How a joined table is matched. -/
inductive JoinKind where
  | inner | left
  deriving DecidableEq, Repr

/-- The join in a statement. -/
def JoinKind.sql : JoinKind → String
  | inner => "INNER JOIN"
  | left => "LEFT JOIN"

/-- The direction of an order. -/
inductive Direction where
  | asc | desc
  deriving DecidableEq, Repr

/-- A key by which the result is ordered. -/
structure SortKey where
  item : Item
  direction : Option Direction := none
  deriving DecidableEq, Repr

/-- A clause of a query in which references stand. -/
inductive Clause where
  | select | join | filter | groupBy | having | orderBy
  deriving DecidableEq, Repr

/-- The clause in words. -/
def Clause.name : Clause → String
  | select => "Select"
  | join => "Join"
  | filter => "Where"
  | groupBy => "GroupBy"
  | having => "Having"
  | orderBy => "OrderBy"

end AskSql
