import AskSql.Proofs.Decimal.Integral
import AskSql.Proofs.Text.Digits

/-!
# Whole numbers in text

A numeral is read in two ways: as a number of so many bits, if it fits, or as the nearest float
(`DigitRun.natural?_text`, `DigitRun.real?_text`).  With a sign in front of it, a numeral stands for
a whole number, which the two readings for numbers with a sign come to as well
(`DigitRun.int64?_signed`, `DigitRun.real?_signed`).
-/

namespace AskSql

open Text

/-- Some digits of the ASCII range. -/
structure DigitRun where
  digits : List Char
  digits_ne_nil : digits ≠ []
  digits_ascii : ∀ c ∈ digits, isAsciiDigit c = true

namespace DigitRun

variable (n : DigitRun)

/-- The number that the digits write. -/
def value : Nat :=
  Nat.ofDigitChars 10 n.digits 0

/-- The digits as a text. -/
def text : String :=
  String.ofList n.digits

/-- What may stand in front of a numeral. -/
inductive Sign where
  | none | plus | minus

namespace Sign

/-- The sign in writing. -/
def chars : Sign → List Char
  | none => []
  | plus => ['+']
  | minus => ['-']

/-- The number with the sign. -/
def apply (k : Nat) : Sign → Int
  | minus => -k
  | _ => k

/-- The float with the sign. -/
def applyFloat (x : Float) : Sign → Float
  | minus => -x
  | _ => x

end Sign

/-- The numeral with a sign, as a text. -/
def signed (sign : Sign) : String :=
  String.ofList (sign.chars ++ n.digits)

theorem exists_digits_eq : ∃ c cs, n.digits = c :: cs ∧ isAsciiDigit c = true := by
  obtain ⟨c, cs, hdigits⟩ := List.exists_cons_of_ne_nil n.digits_ne_nil
  exact ⟨c, cs, hdigits, n.digits_ascii c (hdigits ▸ List.mem_cons_self)⟩

theorem digitsValue?_digits : digitsValue? n.digits = some n.value :=
  digitsValue?_eq n.digits_ne_nil n.digits_ascii

theorem natural?_text (bits : Nat) :
    natural? bits n.text = if n.value < 2 ^ bits then some n.value else none :=
  natural?_ofList n.digits_ne_nil n.digits_ascii bits

/-- No sign stands in front of the digits but the one that is written there. -/
theorem splitSign_signed (sign : Sign) :
    splitSign (sign.chars ++ n.digits) =
      (match sign with | .minus => true | _ => false, n.digits) := by
  cases sign with
  | none =>
      obtain ⟨c, cs, hdigits, hc⟩ := n.exists_digits_eq
      rw [hdigits, Sign.chars, List.nil_append]
      unfold splitSign
      split
      · next heq =>
          obtain ⟨rfl, -⟩ := List.cons.inj heq
          cases hc
      · next heq =>
          obtain ⟨rfl, -⟩ := List.cons.inj heq
          cases hc
      · rfl
  | plus => rfl
  | minus => rfl

theorem decimal?_digits : decimal? n.digits = some (nearestFloat n.value 0) := by
  have hspan : spanDigits n.digits = (n.digits, []) := by
    rw [spanDigits, List.takeWhile_eq_self_iff.2 n.digits_ascii,
      List.dropWhile_eq_nil_iff.2 n.digits_ascii]
  rw [decimal?, hspan]
  simp only [List.append_nil, n.digitsValue?_digits, Option.bind_some]
  rfl

/-- A numeral is no word that begins otherwise. -/
theorem beq_text {ws : List String} (h : ∀ w ∈ ws, w.toList.head?.any isAsciiDigit = false) :
    ∀ w ∈ ws, (n.text == w) = false := by
  intro w hw
  obtain ⟨c, cs, hdigits, hc⟩ := n.exists_digits_eq
  refine beq_false_of_ne fun heq => ?_
  have hfirst := h w hw
  rw [← heq, text, String.toList_ofList, hdigits, List.head?_cons, Option.any_some, hc] at hfirst
  cases hfirst

/-- Digits have no small form of their own. -/
theorem map_toLower_digits : n.digits.map Char.toLower = n.digits := by
  have hall : "0123456789".toList.all (fun c => c.toLower == c) = true := by decide
  have hsmall : ∀ c ∈ n.digits, c.toLower = c := fun c hc =>
    eq_of_beq (List.all_eq_true.1 hall c (mem_of_isAsciiDigit (n.digits_ascii c hc)))
  rw [List.map_congr_left hsmall, List.map_id']

theorem real?_signed (sign : Sign) :
    real? (n.signed sign) = some (sign.applyFloat (nearestFloat n.value 0)) := by
  have hwords : ∀ w ∈ ["inf", "infinity", "nan"], (n.text == w) = false := n.beq_text (by decide)
  simp only [List.forall_mem_cons] at hwords
  obtain ⟨hinf, hinfinity, hnan, -⟩ := hwords
  have hsmall : String.ofList (n.digits.map Char.toLower) = n.text :=
    congrArg String.ofList n.map_toLower_digits
  rw [real?, signed, String.toList_ofList, n.splitSign_signed]
  simp only [hsmall, hinf, hinfinity, hnan, Bool.false_or, Bool.false_eq_true, if_false,
    n.decimal?_digits, Option.map_some]
  cases sign <;> rfl

theorem real?_text : real? n.text = some (nearestFloat n.value 0) :=
  n.real?_signed .none

/-- The numbers of 64 bits with a sign reach one further below zero than above it. -/
theorem int64?_signed (sign : Sign) :
    int64? (n.signed sign) =
      if -2 ^ 63 ≤ sign.apply n.value ∧ sign.apply n.value < 2 ^ 63 then
        some (sign.apply n.value)
      else none := by
  have hpow : Nat.pow 2 63 = 2 ^ 63 := rfl
  have hbelow : (n.value : Int) < 2 ^ 63 ↔ n.value < 2 ^ 63 := by omega
  have habove : -2 ^ 63 ≤ (n.value : Int) := by omega
  rw [int64?, signed, String.toList_ofList, n.splitSign_signed]
  simp only [n.digitsValue?_digits, Option.bind_some, hpow]
  cases sign with
  | none | plus =>
      simp only [Sign.apply, Bool.false_eq_true, if_false, habove, hbelow, true_and]
  | minus =>
      have hleast : (-2 ^ 63 ≤ -(n.value : Int) ∧ -(n.value : Int) < 2 ^ 63) ↔
          n.value ≤ 2 ^ 63 := by omega
      simp only [Sign.apply, if_true, hleast]

end DigitRun
end AskSql
