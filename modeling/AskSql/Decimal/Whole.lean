import AskSql.Decimal.Shortest

/-!
# Floats and whole numbers

Whole numbers as the nearest floats, and the least whole float that is not below a float.
-/

namespace AskSql.Decimal

/-- The float nearest to a count of at most 64 bits. -/
def ofNat (n : Nat) : Float :=
  n.toUInt64.toFloat

/-- The float nearest to a whole number whose size has at most 64 bits. -/
def ofInt (n : Int) : Float :=
  if n < 0 then -ofNat n.natAbs else ofNat n.natAbs

/-- The least whole float that is not below the float.  Floats from `2 ^ 52` on are whole. -/
def ceiling (x : Float) : Float :=
  let b := Binary.ofBits x.toBits
  if 0 ≤ b.exponent || b.mantissa == 0 || !x.isFinite then x
  else
    let unit := Nat.pow 2 (-b.exponent).toNat
    let below := b.mantissa / unit
    if x < 0 then -ofNat below
    else ofNat (if b.mantissa % unit == 0 then below else below + 1)

/-- The larger of two floats; one that is no number does not count. -/
def larger (x y : Float) : Float :=
  if x.isNaN then y else if y.isNaN then x else if x < y then y else x

/-- The smaller of two floats; one that is no number does not count. -/
def smaller (x y : Float) : Float :=
  if x.isNaN then y else if y.isNaN then x else if y < x then y else x

end AskSql.Decimal
