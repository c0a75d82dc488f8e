import AskSql.Decimal.Shortest

/-!
# Floats as text

Two ways to write a float: positionally with the fewest digits that read back (`positional`), and
with a set number of decimal places (`fixed`).
-/

namespace AskSql.Decimal

/-- The sign bit is set. -/
def isNegative (x : Float) : Bool :=
  x.toBits >>> 63 == 1

/-- The decimal digits of a number. -/
def digitChars (n : Nat) : List Char :=
  Nat.toDigits 10 n

/-- A row of zeros. -/
def zeros (n : Nat) : List Char :=
  List.replicate n '0'

/-- The digits of `d` with the point where it belongs: whole part and fraction. -/
def Scaled.spread (d : Scaled) : List Char × List Char :=
  let ds := digitChars d.digits
  if 0 ≤ d.exponent then
    (ds ++ zeros d.exponent.toNat, [])
  else
    let places := (-d.exponent).toNat
    if ds.length ≤ places then
      (['0'], zeros (places - ds.length) ++ ds)
    else
      (ds.take (ds.length - places), ds.drop (ds.length - places))

/-- A float that is no number or infinite, as a word. -/
def wordFor (x : Float) : String :=
  if x.isNaN then "NaN" else if isNegative x then "-inf" else "inf"

/-- The shortest decimal of a finite float, sign aside. -/
def shortestOf (tie : Tie) (x : Float) : Scaled :=
  let b := Binary.ofBits x.toBits
  if b.mantissa == 0 then ⟨0, 0⟩ else Scaled.strip 17 (b.shortest tie)

/-- A float in positional notation with the fewest digits that read back: no exponent, and no
point in a whole number. -/
def positional (x : Float) : String :=
  if x.isFinite then
    let (whole, fraction) := (shortestOf .upward x).spread
    let sign := if isNegative x then ['-'] else []
    String.ofList (sign ++ whole ++ (if fraction.isEmpty then [] else '.' :: fraction))
  else
    wordFor x

/-- A float with a set number of decimal places, rounded from its exact value; halves go to the
even neighbour. -/
def fixed (places : Nat) (x : Float) : String :=
  if x.isFinite then
    let (num, den) := (Binary.ofBits x.toBits).inUnits (-(places : Int))
    let ds := digitChars (roundDiv .toEven num den)
    let ds := zeros (places + 1 - ds.length) ++ ds
    let (whole, fraction) := (ds.take (ds.length - places), ds.drop (ds.length - places))
    let sign := if isNegative x then ['-'] else []
    String.ofList (sign ++ whole ++ (if places == 0 then [] else '.' :: fraction))
  else
    wordFor x

end AskSql.Decimal
