import AskSql.Compose.Mention
import AskSql.Failure

/-!
# Conditions of a question

A comparison that a question mentions becomes a condition when its column and its value can be
made out; otherwise it is passed over.  All conditions have to hold, so an alternative must be
merged with the condition in front of it: two equalities of one column become a list of values.
Any other alternative is refused.
-/

namespace AskSql

/-- The comparisons by their usual forms. -/
def Comparison.symbols : List (String × Comparison) :=
  [("=", .eq), ("!=", .notEq), (">", .gt), (">=", .gtEq), ("<", .lt), ("<=", .ltEq),
    ("like", .like), ("not like", .notLike), ("between", .between), ("in", .isIn),
    ("not in", .notIn)]

/-- A value of a question as a literal.  A number is a whole number where 64 bits hold it. -/
def Literal.ofValue (value : String) : EntityKind → Literal
  | .number =>
    match Text.int64? value, Text.real? value with
    | some n, _ => .integer n
    | none, some x => .float x
    | none, none => .text value
  | .date => .date value
  | .boolean => .boolean (value == "true")
  | _ => .text value

namespace ConditionPart

/-- A pattern for the texts that a value occurs in. -/
def anywhere (value : String) : Literal :=
  .text ("%" ++ value ++ "%")

/-- The right side for a value that stands for itself.  A value without `%` is to be found
anywhere in the texts that it is likened to. -/
def comparand? (part : ConditionPart) (op : Comparison) (value : String) (kind : EntityKind) :
    Option Comparand :=
  match op with
  | .between => part.high.map fun high =>
      .range (Literal.ofValue value kind) (Literal.ofValue high kind)
  | .like | .notLike =>
    some (.literal
      (if value.toList.contains '%' then Literal.ofValue value kind else anywhere value))
  | _ => some (.literal (Literal.ofValue value kind))

/-- The comparison with its right side, by the kind of the value. -/
def comparison? (s : Schema) (t : JoinTree) (part : ConditionPart) (op : Comparison)
    (value : String) (kind : EntityKind) : Option (Joined (Comparison × Comparand)) :=
  match kind with
  | .null => some ((if op == .notEq then .isNotNull else .isNull, .null), t)
  | .timeRange => part.days.map fun days => ((op, .daysAgo days), t)
  | .column =>
    (Mention.resolveColumn? s t value).map fun (c, t) => ((op, .column c), t)
  | kind => (part.comparand? op value kind).map fun rhs => ((op, rhs), t)

/-- The column on the left side. -/
def column? (s : Schema) (t : JoinTree) (part : ConditionPart) : Option (Joined Reference) :=
  Mention.resolve? s t { column := part.column, table := part.table }

/-- The modifier is this one. -/
def isModified (part : ConditionPart) (modifier : String) : Bool :=
  part.modifier == some modifier

/-- The comparison as it has to hold, behind `not` the opposite one. -/
def effective (part : ConditionPart) (op : Comparison) : Comparison :=
  if part.isModified "not" then op.negate else op

/-- The condition for a comparison, if its parts can be made out.  Tables that were joined for it
stay. -/
def condition (s : Schema) (t : JoinTree) (part : ConditionPart) : Joined (Option Condition) :=
  match Comparison.symbols.lookup part.operator, part.column? s t with
  | some op, some (column, t) =>
    t.attempt do
      let ((op, rhs), t) ← part.comparison? s t op (← part.value) (← part.valueKind)
      return (⟨.column column, part.effective op, rhs⟩, t)
  | _, _ => (none, t)

/-- An alternative that cannot be merged. -/
def unmergeable (part : ConditionPart) : Failure :=
  .unsupported ("'or' with '" ++ part.column.getD "?" ++ " " ++ part.operator ++
    "' must compare the same column by equality") none none

end ConditionPart

namespace Condition

/-- The column on the left side. -/
def leftColumn? (c : Condition) : Option Reference :=
  match c.lhs with
  | .column r => some r
  | _ => none

/-- The value on the right side. -/
def literal? (c : Condition) : Option Literal :=
  match c.rhs with
  | .literal v => some v
  | _ => none

/-- The next condition is an alternative to this one that can be merged with it. -/
def isMergeable (c next : Condition) : Bool :=
  ((c.leftColumn?.bind fun a => next.leftColumn?.map a.sameColumn).getD false) &&
    (c.op == .eq || c.op == .isIn) && next.op == .eq && next.literal?.isSome

/-- The condition with one more value that is equal to the column. -/
def withAlternative (c : Condition) (value : Literal) : Condition :=
  match c.rhs with
  | .list values => ⟨c.lhs, c.op, .list (values ++ [value])⟩
  | .literal first => ⟨c.lhs, .isIn, .list [first, value]⟩
  | _ => c

/-- The condition merged with an alternative, if that is possible. -/
def merge? (c next : Condition) : Option Condition :=
  if c.isMergeable next then next.literal?.map c.withAlternative else none

/-- Adds the condition for a comparison to those in front of it. -/
def add (cs : List Condition) (part : ConditionPart) (c : Condition) :
    Except Failure (List Condition) :=
  if part.isModified "or" then
    match cs.getLast?.bind fun last => last.merge? c with
    | some merged => .ok (cs.dropLast ++ [merged])
    | none => .error part.unmergeable
  else .ok (cs ++ [c])

/-- The conditions for some comparisons, behind those that are there. -/
def ofParts (s : Schema) : List Condition → JoinTree → List ConditionPart →
    Except Failure (Joined (List Condition))
  | cs, t, [] => .ok (cs, t)
  | cs, t, part :: parts =>
    match part.condition s t with
    | (none, t) => ofParts s cs t parts
    | (some c, t) => do ofParts s (← add cs part c) t parts

end Condition

end AskSql
