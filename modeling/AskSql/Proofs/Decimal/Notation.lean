import AskSql.Proofs.Decimal.Shortest

/-!
# Digits

The digits of a number give it back, and begin with no zero that could be left out.  The same holds
of a decimal that is written with a point (`Decimal.number_spread`).
-/

namespace AskSql

theorem isDigit_of_mem_digits {n : Nat} {c : Char} (h : c ∈ Nat.toDigits 10 n) :
    c.isDigit = true :=
  Nat.isDigit_of_mem_toDigits (by decide) (by decide) h

theorem toList_toString (n : Nat) : (toString n).toList = Nat.toDigits 10 n := by
  rw [Nat.toString_eq_repr, Nat.toList_repr]

theorem toDigits_unique {n k : Nat} (h : Nat.toDigits 10 n = Nat.toDigits 10 k) : n = k := by
  rw [← Nat.ofDigitChars_ten_toDigits (n := n), h, Nat.ofDigitChars_ten_toDigits]

/-- The digits of a number give it back. -/
theorem toString_nat_unique {n k : Nat} (h : (toString n).toList = (toString k).toList) :
    n = k := by
  rw [toList_toString, toList_toString] at h
  exact toDigits_unique h

theorem head?_toDigits {n : Nat} (h : (Nat.toDigits 10 n).head? = some '0') : n = 0 := by
  induction n using Nat.strong_induction_on with
  | _ n ih =>
      rw [Nat.toDigits_eq_if (by decide)] at h
      split at h
      · next hlt =>
          have hsmall : ∀ k < 10, Nat.digitChar k = '0' → k = 0 := by decide
          exact hsmall n hlt (Option.some.inj h)
      · next hge =>
          rw [List.head?_append_of_ne_nil _ Nat.toDigits_ne_nil] at h
          have hzero := ih (n / 10) (by omega) h
          omega

namespace Decimal

/-- Digits, and some before the point. -/
theorem spread_digits (d : Scaled) :
    (∀ c ∈ d.spread.1 ++ d.spread.2, c.isDigit = true) ∧ d.spread.1 ≠ [] := by
  have hdigits : ∀ c ∈ digitChars d.digits, c.isDigit = true := fun c hc =>
    isDigit_of_mem_digits hc
  have hzeros : ∀ n, ∀ c ∈ zeros n, c.isDigit = true := by
    intro n c hc
    rw [List.eq_of_mem_replicate hc]
    rfl
  have hne : digitChars d.digits ≠ [] := Nat.toDigits_ne_nil
  unfold Scaled.spread
  by_cases hexponent : 0 ≤ d.exponent
  · simp only [hexponent, if_true, List.append_nil, List.forall_mem_append]
    exact ⟨⟨hdigits, hzeros _⟩, by simp [hne]⟩
  · simp only [hexponent, if_false]
    -- the point stands before all of the digits, or between them
    by_cases hplaces : (digitChars d.digits).length ≤ (-d.exponent).toNat
    · simp only [hplaces, if_true, List.forall_mem_append]
      exact ⟨⟨by simp, hzeros _, hdigits⟩, by simp⟩
    · simp only [hplaces, if_false, List.take_append_drop]
      refine ⟨hdigits, ?_⟩
      intro hempty
      have hlength := congrArg List.length hempty
      simp only [List.length_take, List.length_nil] at hlength
      omega

theorem digitChars_ne_nil (n : Nat) : digitChars n ≠ [] :=
  Nat.toDigits_ne_nil

theorem ofDigitChars_digitChars (n : Nat) : Nat.ofDigitChars 10 (digitChars n) 0 = n :=
  Nat.ofDigitChars_ten_toDigits

/-- What stands before and behind the point gives the digits back. -/
theorem number_spread (d : Scaled) :
    Nat.ofDigitChars 10 (d.spread.1 ++ d.spread.2) 0 = d.digits * 10 ^ d.exponent.toNat ∧
      d.spread.2.length = (-d.exponent).toNat := by
  unfold Scaled.spread
  by_cases hexponent : 0 ≤ d.exponent
  · simp only [hexponent, if_true, List.append_nil]
    refine ⟨?_, by simp; omega⟩
    rw [Nat.ofDigitChars_append, ofDigitChars_digitChars, zeros, Nat.ofDigitChars_replicate_zero,
      Nat.mul_comm]
  · have hzero : d.exponent.toNat = 0 := by omega
    simp only [hexponent, if_false, hzero, Nat.pow_zero, Nat.mul_one]
    by_cases hplaces : (digitChars d.digits).length ≤ (-d.exponent).toNat
    · simp only [hplaces, if_true]
      refine ⟨?_, ?_⟩
      · rw [Nat.ofDigitChars_append, Nat.ofDigitChars_append, zeros,
          Nat.ofDigitChars_replicate_zero]
        exact ofDigitChars_digitChars _
      · simp only [zeros, List.length_append, List.length_replicate]
        omega
    · simp only [hplaces, if_false, List.take_append_drop, ofDigitChars_digitChars, true_and,
        List.length_drop]
      omega

/-- A zero at the beginning stands alone before the point. -/
theorem spread_head {d : Scaled} (hzero : d.digits = 0 → d.exponent = 0)
    (h : d.spread.1.head? = some '0') : d.spread.1.length = 1 := by
  unfold Scaled.spread at h ⊢
  by_cases hexponent : 0 ≤ d.exponent
  · simp only [hexponent, if_true] at h ⊢
    rw [List.head?_append_of_ne_nil _ (digitChars_ne_nil _)] at h
    have hdigits := head?_toDigits h
    rw [hdigits, hzero hdigits]
    rfl
  · simp only [hexponent, if_false] at h ⊢
    by_cases hplaces : (digitChars d.digits).length ≤ (-d.exponent).toNat
    · simp only [hplaces, if_true, List.length_singleton]
    · simp only [hplaces, if_false] at h ⊢
      rw [List.head?_take, if_neg (by omega)] at h
      have hdigits := head?_toDigits h
      omega

end Decimal

end AskSql
