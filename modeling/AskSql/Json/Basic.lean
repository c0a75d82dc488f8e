import AskSql.Decimal.Notation

/-!
# Data documents

The values of JSON.  A document keeps each number as it is written and the members of an object in
the order in which they stand, repeated names included: what a repeated name or a number out of
range means is settled when the document is taken for a value.
-/

namespace AskSql

/-- A number as it is written: sign, whole digits, digits after the point and exponent. -/
structure Numeral where
  negative : Bool
  whole : List Char
  fraction : Option (List Char) := none
  /-- The sign of the exponent, `true` for minus, and its digits. -/
  exponent : Option (Bool × List Char) := none
  deriving DecidableEq, Repr

/-- A JSON value. -/
inductive Json where
  | null
  | bool (value : Bool)
  | number (value : Numeral)
  | text (value : String)
  | array (items : List Json)
  | object (members : List (String × Json))
  deriving Repr, Inhabited

namespace Numeral

/-- A whole number. -/
def ofInt (n : Int) : Numeral :=
  ⟨n < 0, Decimal.digitChars n.natAbs, none, none⟩

/-- A finite float: positionally with at least one decimal place where its leading digit stands
for a power of ten from -5 to 15, otherwise with one digit before the point and an exponent. -/
def ofFloat (x : Float) : Numeral :=
  let d := Decimal.shortestOf .toEven x
  let ds := Decimal.digitChars d.digits
  let lead : Int := d.exponent + ds.length - 1
  let negative := Decimal.isNegative x
  if -5 ≤ lead && lead < 16 then
    let (whole, fraction) := d.spread
    ⟨negative, whole, some (if fraction.isEmpty then ['0'] else fraction), none⟩
  else
    let places := if ds.length ≤ 1 then none else some ds.tail
    ⟨negative, ds.take 1, places, some (lead < 0, Decimal.digitChars lead.natAbs)⟩

/-- The number as it stands in a document. -/
def chars (n : Numeral) : List Char :=
  (if n.negative then ['-'] else []) ++ n.whole ++
    (match n.fraction with
      | some ds => '.' :: ds
      | none => []) ++
    (match n.exponent with
      | some (negative, ds) => 'e' :: (if negative then '-' :: ds else ds)
      | none => [])

end Numeral

namespace Json

/-- A whole number. -/
def int (n : Int) : Json :=
  number (.ofInt n)

/-- A natural number. -/
def nat (n : Nat) : Json :=
  int n

/-- A float; one that is no number or infinite has no written form and stands as null. -/
def float (x : Float) : Json :=
  if x.isFinite then number (.ofFloat x) else null

/-- A value that may be absent, null where it is. -/
def orNull {α : Type} (f : α → Json) : Option α → Json
  | some a => f a
  | none => null

/-- A list, item by item. -/
def list {α : Type} (f : α → Json) (xs : List α) : Json :=
  array (xs.map f)

/-- A member that is always there. -/
def field (name : String) (value : Json) : List (String × Json) :=
  [(name, value)]

/-- A member that is left out where the value is absent. -/
def fieldIfSome {α : Type} (name : String) (f : α → Json) : Option α → List (String × Json)
  | some a => [(name, f a)]
  | none => []

/-- A member that is left out where the list is empty. -/
def fieldIfAny {α : Type} (name : String) (f : α → Json) (xs : List α) : List (String × Json) :=
  if xs.isEmpty then [] else [(name, list f xs)]

/-- A member that is left out where the flag is not set. -/
def fieldIfTrue (name : String) (flag : Bool) : List (String × Json) :=
  if flag then [(name, bool true)] else []

end Json

end AskSql
