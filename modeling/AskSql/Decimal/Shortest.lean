import AskSql.Decimal.Rounding

/-!
# The fewest digits that read back

A finite 64-bit float stands for a binary fraction `mantissa * 2 ^ exponent`, and every decimal
closer to it than to its neighbours reads back as the same float.  `Binary.shortest` selects among
these decimals one with the fewest digits and, of those, the nearest.  All comparisons are made in
whole numbers.
-/

namespace AskSql.Decimal

/-- The size of a finite float: `mantissa * 2 ^ exponent`. -/
structure Binary where
  mantissa : Nat
  exponent : Int
  /-- The gap to the float below is half the gap to the float above. -/
  narrowBelow : Bool
  deriving Repr

/-- The size of a float by its bits, sign aside.  The bits of NaN and of the infinities have no
size. -/
def Binary.ofBits (bits : UInt64) : Binary :=
  let e := ((bits >>> 52) &&& 0x7FF).toNat
  let f := (bits &&& 0xFFFFFFFFFFFFF).toNat
  if e == 0 then ⟨f, -1074, false⟩ else ⟨Nat.pow 2 52 + f, (e : Int) - 1075, f == 0 && e > 1⟩

/-- The decimal `digits * 10 ^ exponent`. -/
structure Scaled where
  digits : Nat
  exponent : Int
  deriving Repr, DecidableEq

/-- Compares `a * 10 ^ i` with `n * 2 ^ j`. -/
def compareScaled (a : Nat) (i : Int) (n : Nat) (j : Int) : Ordering :=
  compare (a * Nat.pow 10 i.toNat * Nat.pow 2 (-j).toNat)
    (n * Nat.pow 2 j.toNat * Nat.pow 10 (-i).toNat)

namespace Binary

/-- The decimal lies among the reals that round to the float, to nearest with ties to even. -/
def readsBack (x : Binary) (d : Scaled) : Bool :=
  let low := if x.narrowBelow then 4 * x.mantissa - 1 else 4 * x.mantissa - 2
  let high := 4 * x.mantissa + 2
  let closed := x.mantissa % 2 == 0
  let toLow := compareScaled d.digits d.exponent low (x.exponent - 2)
  let toHigh := compareScaled d.digits d.exponent high (x.exponent - 2)
  (toLow == .gt || (closed && toLow == .eq)) && (toHigh == .lt || (closed && toHigh == .eq))

/-- The value counted in units of `10 ^ grid`, as numerator and denominator. -/
def inUnits (x : Binary) (grid : Int) : Nat × Nat :=
  (x.mantissa * Nat.pow 2 x.exponent.toNat * Nat.pow 10 (-grid).toNat,
    Nat.pow 2 (-x.exponent).toNat * Nat.pow 10 grid.toNat)

/-- The least `k` with the value below `10 ^ k`, looked for near the estimate from the count of
bits. -/
def scale (x : Binary) : Int :=
  let bits := (x.mantissa.log2 : Int) + 1 + x.exponent
  let guess := bits * 30103 / 100000 - 2
  let tries := (List.range 8).map fun (i : Nat) => guess + (i : Int)
  (tries.find? fun k => compareScaled 1 k x.mantissa x.exponent == .gt).getD (guess + 8)

/-- The better of the value's two neighbours on the grid of `10 ^ grid`, if one reads back. -/
def onGrid? (tie : Tie) (x : Binary) (grid : Int) : Option Scaled :=
  let (num, den) := x.inUnits grid
  let below : Scaled := ⟨num / den, grid⟩
  let above : Scaled := ⟨num / den + 1, grid⟩
  match below.digits != 0 && x.readsBack below, x.readsBack above with
  | true, true => some ⟨roundDiv tie num den, grid⟩
  | true, false => some below
  | false, true => some above
  | false, false => none

/-- The value in full. -/
def exact (x : Binary) : Scaled :=
  if 0 ≤ x.exponent then
    ⟨x.mantissa * Nat.pow 2 x.exponent.toNat, 0⟩
  else
    ⟨x.mantissa * Nat.pow 5 (-x.exponent).toNat, x.exponent⟩

/-- The fewest digits that read back, on the coarsest grid that has such a decimal. -/
def shortest (tie : Tie) (x : Binary) : Scaled :=
  let top := x.scale
  ((List.range 17).findSome? fun (i : Nat) =>
    x.onGrid? tie (top - 1 - (i : Int))).getD x.exact

end Binary

/-- Moves zeros at the end of the digits into the exponent, at most `n` of them. -/
def Scaled.strip : Nat → Scaled → Scaled
  | 0, d => d
  | n + 1, d =>
    if d.digits != 0 && d.digits % 10 == 0 then strip n ⟨d.digits / 10, d.exponent + 1⟩ else d

end AskSql.Decimal
