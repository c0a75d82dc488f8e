/-!
# Rounding of quotients

`roundDiv` rounds an exact quotient of natural numbers to the nearest whole number; a quotient
halfway between two whole numbers goes where the tie rule says.
-/

namespace AskSql.Decimal

/-- Where a value halfway between two neighbours goes. -/
inductive Tie where
  | toEven
  | upward
  deriving DecidableEq, Repr

/-- The quotient `num / den` rounded to a whole number. -/
def roundDiv (tie : Tie) (num den : Nat) : Nat :=
  let q := num / den
  let r := num % den
  if 2 * r < den then q
  else if den < 2 * r then q + 1
  else match tie with
    | .upward => q + 1
    | .toEven => if q % 2 == 0 then q else q + 1

end AskSql.Decimal
