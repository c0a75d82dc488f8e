import AskSql.Proofs.Decimal.Shares

/-!
# Quotients of floats

The quotient of two finite floats is the exact one, rounded (`rounds_div`): the mantissas are divided
with bits enough in the quotient (`le_unitExponent_div`), and what is left over decides on the
rounding.  So the quotient of a count by one that is no smaller is a share
(`isShare_ofNat_div_ofNat`).
-/

namespace AskSql.Decimal

open Float.Model Float.Model.UnpackedFloat

/-! ### Divided mantissas -/

theorem le_log2_div {m d a : Nat} (hm : 0 < m) (hd : 0 < d) (h : a + (d.log2 + 1) ≤ m.log2) :
    a ≤ (m / d).log2 := by
  have hquotient : 2 ^ a ≤ m / d := by
    rw [Nat.le_div_iff_mul_le hd]
    calc 2 ^ a * d ≤ 2 ^ a * 2 ^ (d.log2 + 1) := Nat.mul_le_mul_left _ Nat.lt_log2_self.le
      _ = 2 ^ (a + (d.log2 + 1)) := (Nat.pow_add _ _ _).symm
      _ ≤ 2 ^ m.log2 := Nat.pow_le_pow_right (by norm_num) h
      _ ≤ m := Nat.log2_self_le hm.ne'
  exact (Nat.le_log2 ((Nat.two_pow_pos a).trans_le hquotient).ne').2 hquotient

theorem targetExponent_sub (m m' : Nat) (e e' : Int) :
    Format.binary64.targetExponent (totalExponent m e - totalExponent m' e') =
      max (m.log2 - m'.log2 + (e - e') - 53) (-1074) := by
  simp only [Format.targetExponent, totalExponent, Format.mantissaBits, Format.minExponent]
  norm_num
  omega

/-- A mantissa that is written with exponent enough leaves bits enough in the quotient. -/
theorem le_unitExponent_div {m m' k : Nat} {e t : Int} (hm : 0 < m) (hm' : 0 < m')
    (hk : t = e - k) (ht : t ≤ max (m.log2 - m'.log2 + e - 53) (-1074)) :
    t ≤ unitExponent (m <<< k / m') t := by
  unfold unitExponent
  obtain hbits | hleast := le_max_iff.1 ht
  · have hpos : 0 < m <<< k := by
      rw [Nat.shiftLeft_eq]
      exact Nat.mul_pos hm (Nat.two_pow_pos k)
    have hshift := log2_mul_two_pow hm k
    rw [← Nat.shiftLeft_eq] at hshift
    have hlog : 52 ≤ (m <<< k / m').log2 := le_log2_div hpos hm' (by omega)
    omega
  · exact hleast.trans (le_max_right _ _)

/-- Dividing the mantissas finds the place that takes the quotient in. -/
theorem exists_sized_divCore (s : Sign) {m m' : Nat} (hm : 0 < m) (hm' : 0 < m') (e e' : Int) :
    let (quotient, exponent, accuracy) := divCore Format.binary64 m e m' e'
    ∃ n, Sized s (roundWithAccuracy Format.binary64 s quotient exponent accuracy) n ∧
      Covers n (m / m' * 2 ^ (e - e')) := by
  unfold divCore
  dsimp only
  rw [targetExponent_sub]
  -- the exponent is made smaller by `k`, never larger
  generalize ht : min (e - e') (max (m.log2 - m'.log2 + (e - e') - 53) (-1074)) = t
  generalize hk : (e - e' - t).toNat = k
  have hshift : t = e - e' - k := by omega
  obtain ⟨n, hsized, hcovers⟩ := exists_sized_roundQuotient s hm'
    (le_unitExponent_div hm hm' hshift (by omega))
  have hvalue := shiftLeft_mul_zpow m k (e - e')
  rw [← hshift] at hvalue
  rw [div_mul_eq_mul_div, hvalue, ← div_mul_eq_mul_div] at hcovers
  exact ⟨n, hsized, hcovers⟩

/-! ### Quotients -/

theorem cast_apply_div (s t : Sign) :
    (((s / t).apply 1 : Int) : ℚ) = (s.apply 1 : Int) / (t.apply 1 : Int) := by
  have hsign : s / t = s * t := by
    cases s <;> cases t <;> rfl
  have hunit : ((t.apply 1 : Int) : ℚ)⁻¹ = (t.apply 1 : Int) := by
    cases t <;> norm_num [Sign.apply]
  rw [hsign, cast_apply_mul, div_eq_mul_inv, hunit]

/-- Quotients of floats are rounded. -/
theorem Sized.div {s t : Sign} {u v : UnpackedFloat} {n k : Nat} (hu : Sized s u n)
    (hv : Sized t v k) (hne : valueOf v ≠ 0) :
    ∃ j, Sized (s / t) (UnpackedFloat.div Format.binary64 u v) j ∧
      Rounds (valueOf u / valueOf v) ((s / t).apply (min j infinite : Nat)) := by
  cases hv with
  | zero => exact absurd rfl hne
  | @finite m' e' hm' hc' =>
      cases hu with
      | zero =>
          refine ⟨0, .zero, ?_⟩
          rw [Nat.zero_min, Nat.cast_zero, apply_zero]
          simpa only [valueOf, zero_div] using rounds_zero
      | @finite m e hm hc =>
          obtain ⟨j, hsized, hcovers⟩ := exists_sized_divCore (s / t) hm hm' e e'
          refine ⟨j, hsized, ?_⟩
          have hpos : (0 : ℚ) ≤ m / m' * 2 ^ (e - e') := by positivity
          have hrounds := hcovers.nearest.rounds hpos (s / t)
          have hvalue : ((s / t).apply 1 : Int) * ((m / m' : ℚ) * 2 ^ (e - e')) =
              valueOf (.finite s m e hm) / valueOf (.finite t m' e' hm') := by
            rw [cast_apply_div, zpow_sub₀ (by norm_num), div_mul_div_comm, div_mul_div_comm]
            rfl
          rwa [hvalue] at hrounds

/-- The quotient of two finite floats is the exact one, rounded. -/
theorem rounds_div {x y : Float} (hx : x.isFinite = true) (hy : y.isFinite = true)
    (hne : value y ≠ 0) :
    (x / y).isNaN = false ∧ Rounds (value x / value y) (rank (x / y)) := by
  obtain ⟨j, hsized, hrounds⟩ := (sized_of_isFinite hx).1.div (sized_of_isFinite hy).1 hne
  obtain ⟨hnumber, hrank⟩ := rank_ofModel hsized
  rw [← hrank] at hrounds
  exact ⟨hnumber, hrounds⟩

/-- The quotient by a float that is no smaller. -/
theorem isShare_div {x y : Float} (hx : 0 ≤ x) (h : x ≤ y) (hfinite : y.isFinite = true)
    (hpos : 0 < value y) : IsShare (x / y) := by
  have hxfinite := isFinite_of_le hx h hfinite
  obtain ⟨hone, hvalue⟩ := value_one
  have hplace := rounds_value hone
  rw [hvalue] at hplace
  obtain ⟨hquotient, hrounds⟩ := rounds_div hxfinite hfinite hpos.ne'
  rw [IsShare, nonneg_iff, le_iff]
  refine ⟨⟨hquotient, rounds_zero.mono hrounds ?_⟩, hquotient, (number_of_isFinite hone).1,
    hrounds.mono hplace ?_⟩
  · exact div_nonneg (value_nonneg hxfinite ((nonneg_iff x).1 hx).2) hpos.le
  · exact (div_le_one hpos).2 ((value_le_iff hxfinite hfinite).2 ((le_iff x y).1 h).2.2)

/-- The quotient of a count by one that is no smaller. -/
theorem isShare_ofNat_div_ofNat {n k : Nat} (h : n ≤ k) (hpos : 0 < k) (hk : k < 2 ^ 64) :
    IsShare (Decimal.ofNat n / Decimal.ofNat k) :=
  isShare_div (ofNat_nonneg n) (ofNat_le_ofNat h hk) (rounds_ofNat k).1
    (zero_lt_one.trans_le (one_le_value_ofNat hpos hk))

end AskSql.Decimal
