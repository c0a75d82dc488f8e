import AskSql.Proofs.Decimal.Notation
import AskSql.Proofs.Text.Folding
import AskSql.Text.Letter
import AskSql.Text.Numeral

/-!
# Digits in text

The digits of the ASCII range are decimal digits and no blanks.  A text of them is read as the
number that they write, where it fits in the bits that there are (`natural?_ofList`), and a number
is read again from its own digits (`natural?_toString`).
-/

namespace AskSql.Text

/-! ### Characters -/

theorem mem_of_isAsciiDigit {c : Char} (h : isAsciiDigit c = true) :
    c ∈ "0123456789".toList := by
  obtain ⟨hlow, hhigh⟩ := isAsciiDigit_iff.1 h
  have hall : ∀ n < 10, Char.ofNat (48 + n) ∈ "0123456789".toList := by decide
  have hmem := hall (c.toNat - 48) (by omega)
  have hsum : 48 + (c.toNat - 48) = c.toNat := by omega
  rwa [hsum, Char.ofNat_toNat] at hmem

theorem isDecimalDigit_of_isAsciiDigit {c : Char} (h : isAsciiDigit c = true) :
    isDecimalDigit c = true := by
  have hall : "0123456789".toList.all isDecimalDigit = true := by decide
  exact List.all_eq_true.1 hall c (mem_of_isAsciiDigit h)

theorem isBlank_of_isAsciiDigit {c : Char} (h : isAsciiDigit c = true) :
    isBlank c = false := by
  obtain ⟨hlow, hhigh⟩ := isAsciiDigit_iff.1 h
  exact isBlank_eq_false_of_printing (by omega) (by omega)

theorem isAsciiDigit_of_isDigit {c : Char} (h : c.isDigit = true) :
    isAsciiDigit c = true := by
  delta Char.isDigit at h
  simp only [Bool.and_eq_true, decide_eq_true_eq] at h
  simp only [isAsciiDigit, Bool.and_eq_true, decide_eq_true_eq]
  exact h

/-! ### Numbers -/

/-- Digits of the ASCII range are read as the number that they write. -/
theorem digitsValue?_eq {cs : List Char} (hne : cs ≠ []) (h : ∀ c ∈ cs, isAsciiDigit c = true) :
    digitsValue? cs = some (Nat.ofDigitChars 10 cs 0) := by
  have hempty : cs.isEmpty = false := List.isEmpty_eq_false_iff.2 hne
  have hall : cs.all isAsciiDigit = true := List.all_eq_true.2 h
  have hstep : (fun (n : Nat) (c : Char) => n * 10 + (c.toNat - 48)) =
      fun n c => 10 * n + (c.toNat - '0'.toNat) := by
    funext n c
    rw [Nat.mul_comm]
    rfl
  rw [digitsValue?, hempty, hall, hstep]
  rfl

theorem natural?_ofList {cs : List Char} (hne : cs ≠ [])
    (h : ∀ c ∈ cs, isAsciiDigit c = true) (bits : Nat) :
    natural? bits (String.ofList cs) =
      if Nat.ofDigitChars 10 cs 0 < 2 ^ bits then some (Nat.ofDigitChars 10 cs 0) else none := by
  have hvalue := digitsValue?_eq hne h
  rw [natural?, String.toList_ofList]
  split
  · exact absurd (h '+' List.mem_cons_self) (by decide)
  · rw [hvalue]
    rfl

/-- A number that is written in digits is read again where it fits. -/
theorem natural?_toString {n bits : Nat} (h : n < 2 ^ bits) :
    natural? bits (toString n) = some n := by
  have hdigits : ∀ c ∈ Nat.toDigits 10 n, isAsciiDigit c = true := fun c hc =>
    isAsciiDigit_of_isDigit (isDigit_of_mem_digits hc)
  rw [← String.ofList_toList (s := toString n), toList_toString,
    natural?_ofList Nat.toDigits_ne_nil hdigits, Nat.ofDigitChars_ten_toDigits, if_pos h]

end AskSql.Text
