import AskSql.Text.Ascii

/-!
# Numbers in text

The numbers that a text may stand for: whole numbers with or without sign, and decimals with an
optional fraction and exponent.  A decimal is rounded to the nearest float; words for infinity and
for what is no number are taken as well.
-/

namespace AskSql.Text

/-- The number written by some digits; none where there is no digit or something else. -/
def digitsValue? (cs : List Char) : Option Nat :=
  if cs.isEmpty || !cs.all isAsciiDigit then none
  else some (cs.foldl (fun n c => n * 10 + (c.toNat - 48)) 0)

/-- A sign in front of something, `true` for minus. -/
def splitSign : List Char → Bool × List Char
  | '-' :: cs => (true, cs)
  | '+' :: cs => (false, cs)
  | cs => (false, cs)

/-- A natural number below `2 ^ bits`, with or without a plus. -/
def natural? (bits : Nat) (s : String) : Option Nat :=
  let digits := match s.toList with
    | '+' :: cs => cs
    | cs => cs
  (digitsValue? digits).bind fun n => if n < Nat.pow 2 bits then some n else none

/-- A whole number of 64 bits, with or without a sign. -/
def int64? (s : String) : Option Int :=
  let (negative, cs) := splitSign s.toList
  (digitsValue? cs).bind fun n =>
    if negative then (if n ≤ Nat.pow 2 63 then some (-n) else none)
    else if n < Nat.pow 2 63 then some n else none

/-- The digits at the start and what follows them. -/
def spanDigits (cs : List Char) : List Char × List Char :=
  (cs.takeWhile isAsciiDigit, cs.dropWhile isAsciiDigit)

/-- The exponent at the end of a decimal, zero where there is none. -/
def exponent? : List Char → Option Int
  | [] => some 0
  | c :: cs =>
    if c == 'e' || c == 'E' then
      let (negative, ds) := splitSign cs
      (digitsValue? ds).map fun n => if negative then -(n : Int) else n
    else none

/-- The float nearest to `digits * 10 ^ exponent`. -/
def nearestFloat (digits : Nat) (exponent : Int) : Float :=
  let lead : Int := (Nat.toDigits 10 digits).length + exponent
  if digits == 0 then 0
  else if 400 < lead then 1.0 / 0.0
  else if lead < -400 then 0
  else Float.ofScientific digits (exponent < 0) exponent.natAbs

/-- A decimal without sign. -/
def decimal? (cs : List Char) : Option Float :=
  let (whole, rest) := spanDigits cs
  let (fraction, rest) := match rest with
    | '.' :: rest => spanDigits rest
    | _ => ([], rest)
  (digitsValue? (whole ++ fraction)).bind fun n =>
    (exponent? rest).map fun e => nearestFloat n (e - fraction.length)

/-- The float that a text stands for. -/
def real? (s : String) : Option Float :=
  let (negative, cs) := splitSign s.toList
  let word := String.ofList (cs.map Char.toLower)
  let size :=
    if word == "inf" || word == "infinity" then some (1.0 / 0.0)
    else if word == "nan" then some (0.0 / 0.0)
    else decimal? cs
  size.map fun x => if negative then -x else x

end AskSql.Text
