import AskSql.Json.Basic
import AskSql.Text.Ascii

/-!
# The value of a numeral

A numeral without point and exponent is a whole number where it fits 64 bits, with or without
sign; minus zero is a float.  Every other numeral is a float, computed in three steps: the leading
digits that fit 64 bits form a significand, whole digits beyond raise the exponent while decimal
places beyond are dropped, and the significand is scaled by one power of ten.  The scaling rounds
once more, so the result need not be the float nearest to the numeral.
-/

namespace AskSql

/-- The value of a number in a document. -/
inductive Number where
  | whole (value : Int)
  | real (value : Float)

/-- A number as a float. -/
def Number.toFloat : Number → Float
  | whole n => if n < 0 then -(UInt64.ofNat n.natAbs).toFloat else (UInt64.ofNat n.natAbs).toFloat
  | real x => x

/-- The value of a decimal digit. -/
def digitValue (c : Char) : Nat :=
  c.toNat - 48

namespace Numeral

/-- Appends digits to a number as long as it stays below `2 ^ 64`, and gives the digits left. -/
def takeFitting : Nat → List Char → Nat × List Char
  | n, [] => (n, [])
  | n, c :: cs =>
    let m := n * 10 + digitValue c
    if m < Nat.pow 2 64 then takeFitting m cs else (n, c :: cs)

/-- The number written by some digits. -/
def value (ds : List Char) : Nat :=
  ds.foldl (fun n c => n * 10 + digitValue c) 0

/-- The largest power of ten that a single scaling takes. -/
def largestScale : Int := 308

/-- A power of ten up to the largest scale. -/
def powerOfTen (n : Nat) : Float :=
  Float.ofScientific 1 false n

/-- Scales a float down by a power of ten, in at most `n` steps of the largest scale and a last
one. -/
def scaleDown : Nat → Float → Nat → Float
  | 0, x, _ => x
  | n + 1, x, places =>
    if places ≤ 308 then x / powerOfTen places
    else if x == 0 then x
    else scaleDown n (x / powerOfTen 308) (places - 308)

/-- The significand times ten to the exponent; no value where that is too large for a float. -/
def scaled? (significand : Nat) (exponent : Int) : Option Float :=
  let x := (UInt64.ofNat significand).toFloat
  if 0 ≤ exponent then
    if exponent ≤ largestScale then
      let y := x * powerOfTen exponent.toNat
      if y.isInf then none else some y
    else if x == 0 then some x else none
  else
    some (scaleDown ((-exponent).toNat / 308 + 1) x (-exponent).toNat)

/-- Exponents stay within 32 bits. -/
def clampExponent (n : Int) : Int :=
  max (-Nat.pow 2 31) (min n (Nat.pow 2 31 - 1))

/-- The size of a numeral that is written as a float. -/
def magnitude? (n : Numeral) : Option Float :=
  let (significand, beyond) := takeFitting 0 n.whole
  let places := n.fraction.getD []
  let (significand, dropped) := takeFitting significand places
  let start : Int := beyond.length - (places.length - dropped.length : Nat)
  match n.exponent with
  | none => scaled? significand start
  | some (negative, ds) =>
    if value ds < Nat.pow 2 31 then
      let shift : Int := value ds
      scaled? significand (clampExponent (if negative then start - shift else start + shift))
    else if significand == 0 || negative then some 0
    else none

/-- The value of a numeral; none where it is too large for a float. -/
def value? (n : Numeral) : Option Number :=
  let signed (x : Float) : Number := .real (if n.negative then -x else x)
  match n.fraction, n.exponent with
  | none, none =>
    let v : Int := value n.whole
    if n.negative then
      if 0 < v && v ≤ Nat.pow 2 63 then some (.whole (-v)) else n.magnitude?.map signed
    else if v < Nat.pow 2 64 then some (.whole v)
    else n.magnitude?.map signed
  | _, _ => n.magnitude?.map signed

end Numeral

end AskSql
