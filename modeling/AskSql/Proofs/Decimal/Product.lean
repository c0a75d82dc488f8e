import AskSql.Decimal.Whole
import AskSql.Proofs.Decimal.Arithmetic

/-!
# Products of floats and counts keep the order

A product of floats that are not negative is the exact product, rounded, or infinite, or no number
where nothing is taken infinitely often (`productPlace`).  Multiplying by the same keeps the order
(`mul_le_mul_right`).  A count is the nearest float to a number, so that more is never counted as
less (`ofNat_le_ofNat`), and a share of it is a number (`isNaN_ofNat_mul`).
-/

namespace AskSql.Decimal

open Float.Model Float.Model.UnpackedFloat

/-! ### Products of floats that are not negative -/

theorem mul_eq (x y : Float) :
    x * y = .ofModel (Float.Model.pack
      (UnpackedFloat.mul Format.binary64 x.toModel.unpack y.toModel.unpack)) := rfl

theorem mul_comm (x y : Float) : x * y = y * x := by
  have hunpacked : ∀ u v : UnpackedFloat,
      UnpackedFloat.mul Format.binary64 u v = UnpackedFloat.mul Format.binary64 v u := by
    have hsign : ∀ s t : Sign, s * t = t * s := by
      intro s t
      cases s <;> cases t <;> rfl
    intro u v
    cases u <;> cases v <;> simp only [UnpackedFloat.mul, hsign]
    rename_i s m e _ t m' e' _
    rw [hsign s t, Nat.mul_comm, Int.add_comm]
  change Float.ofModel (Float.Model.pack _) = Float.ofModel (Float.Model.pack _)
  rw [hunpacked]

/-- Where the product of two floats that are not negative stands in the order. -/
inductive ProductPlace (x y : Float) : Prop
  | undefined (hproduct : (x * y).isNaN = true)
      (hends : rank x = infinite ∧ rank y = 0 ∨ rank x = 0 ∧ rank y = infinite)
  | top (hproduct : (x * y).isNaN = false) (hrank : rank (x * y) = infinite)
      (hends : rank x = infinite ∧ 0 < rank y ∨ 0 < rank x ∧ rank y = infinite)
  | finite (hproduct : (x * y).isNaN = false)
      (hrounds : Rounds (value x * value y) (rank (x * y)))
      (hx : x.isFinite = true) (hy : y.isFinite = true)

theorem mul_of_infinity {x y : Float} (hx : x.toModel.unpack = .infinity .positive)
    (hy : y.isNaN = false) (hsign : 0 ≤ rank y) :
    rank y = 0 ∧ (x * y).isNaN = true ∨
      0 < rank y ∧ (x * y).isNaN = false ∧ rank (x * y) = infinite := by
  have hpos := infinite_pos
  rw [mul_eq, hx]
  obtain ⟨hnan, -⟩ | ⟨-, t, hv, hrank⟩ | ⟨-, hfinite, -⟩ := float_cases y
  · rw [hnan] at hy
    cases hy
  · cases t with
    | negative =>
        rw [hrank] at hsign
        simp only [Sign.apply] at hsign
        omega
    | positive =>
        rw [hv, hrank]
        exact .inr ⟨by simp only [Sign.apply]; omega, pack_infinity .positive⟩
  · have hsized := (sized_of_isFinite hfinite).1
    unfold rank at hsign ⊢
    generalize y.toModel.unpack = v at hsized
    generalize magnitude y = n at hsized hsign ⊢
    generalize signOf y = t at hsized hsign ⊢
    cases hsized with
    | zero => exact .inl ⟨apply_zero t, pack_notANumber⟩
    | finite hm hc =>
        have hplace := (Sized.finite (s := t) hm hc).place_pos
        cases t with
        | negative =>
            simp only [Sign.apply] at hsign
            omega
        | positive => exact .inr ⟨by simp only [Sign.apply]; omega, pack_infinity .positive⟩

theorem productPlace {x y : Float} (hx : x.isNaN = false) (hy : y.isNaN = false)
    (hxsign : 0 ≤ rank x) (hysign : 0 ≤ rank y) : ProductPlace x y := by
  have hpos := infinite_pos
  -- the signs rule out the lower end
  obtain ⟨hnan, -⟩ | ⟨-, s, hu, hrank⟩ | ⟨-, hxfinite, -⟩ := float_cases x
  · rw [hx] at hnan
    cases hnan
  · cases s with
    | negative =>
        rw [hrank] at hxsign
        simp only [Sign.apply] at hxsign
        omega
    | positive =>
        obtain ⟨hzero, hproduct⟩ | ⟨hother, hproduct, hplace⟩ := mul_of_infinity hu hy hysign
        · exact .undefined hproduct (.inl ⟨hrank, hzero⟩)
        · exact .top hproduct hplace (.inl ⟨hrank, hother⟩)
  · obtain ⟨hnan, -⟩ | ⟨-, s, hv, hrank⟩ | ⟨-, hyfinite, -⟩ := float_cases y
    · rw [hy] at hnan
      cases hnan
    · cases s with
      | negative =>
          rw [hrank] at hysign
          simp only [Sign.apply] at hysign
          omega
      | positive =>
          have hproduct := mul_of_infinity hv hx hxsign
          rw [mul_comm] at hproduct
          obtain ⟨hzero, hproduct⟩ | ⟨hother, hproduct, hplace⟩ := hproduct
          · exact .undefined hproduct (.inr ⟨hzero, hrank⟩)
          · exact .top hproduct hplace (.inr ⟨hother, hrank⟩)
    · obtain ⟨hproduct, hrounds⟩ := rounds_mul hxfinite hyfinite
      exact .finite hproduct hrounds hxfinite hyfinite

/-- What is no number spoils every product. -/
theorem number_of_mul {x y : Float} (h : (x * y).isNaN = false) :
    x.isNaN = false ∧ y.isNaN = false := by
  have hspoilt : ∀ x y : Float, x.isNaN = true → (x * y).isNaN = true := by
    intro x y hx
    obtain ⟨-, hu⟩ | ⟨hnumber, -⟩ | ⟨hnumber, -⟩ := float_cases x
    · rw [mul_eq, hu]
      exact pack_notANumber
    · rw [hx] at hnumber
      cases hnumber
    · rw [hx] at hnumber
      cases hnumber
  constructor
  · rw [← Bool.not_eq_true] at h ⊢
    exact fun hx => h (hspoilt x y hx)
  · rw [← Bool.not_eq_true, mul_comm] at h
    rw [← Bool.not_eq_true]
    exact fun hy => h (hspoilt y x hy)

theorem rank_mul_nonneg {x y : Float} (hx : 0 ≤ rank x) (hy : 0 ≤ rank y)
    (h : (x * y).isNaN = false) : 0 ≤ rank (x * y) := by
  have hpos := infinite_pos
  obtain ⟨hxnumber, hynumber⟩ := number_of_mul h
  cases productPlace hxnumber hynumber hx hy with
  | undefined hproduct => cases h.symm.trans hproduct
  | top _ hrank => omega
  | finite _ hrounds hxfinite hyfinite =>
      exact rounds_zero.mono hrounds
        (mul_nonneg (value_nonneg hxfinite hx) (value_nonneg hyfinite hy))

/-- Multiplying by the same keeps the order, and a product that is a number stays one unless the
factor vanishes. -/
theorem mul_le_mul_right {x y c : Float} (hx : 0 ≤ rank x) (h : x ≤ y) (hc : 0 ≤ rank c)
    (hzero : rank x = 0 → rank y = 0) (hproduct : (y * c).isNaN = false) :
    x * c ≤ y * c := by
  have hpos := infinite_pos
  obtain ⟨hxnumber, hynumber, hle⟩ := (le_iff _ _).1 h
  have hcnumber := (number_of_mul hproduct).2
  have hybounds := rank_bounds hynumber
  have hy : 0 ≤ rank y := hx.trans hle
  rw [le_iff]
  -- where `x * c` is no number, `y * c` would be none either
  cases productPlace hxnumber hcnumber hx hc with
  | undefined hxproduct hxends =>
      cases productPlace hynumber hcnumber hy hc with
      | undefined hyproduct => cases hproduct.symm.trans hyproduct
      | top _ _ hyends => omega
      | finite _ _ hyfinite hcfinite =>
          have := number_of_isFinite hyfinite
          have := number_of_isFinite hcfinite
          omega
  | top hxproduct hxrank hxends =>
      cases productPlace hynumber hcnumber hy hc with
      | undefined hyproduct => cases hproduct.symm.trans hyproduct
      | top _ hyrank => exact ⟨hxproduct, hproduct, by omega⟩
      | finite _ _ hyfinite hcfinite =>
          have := number_of_isFinite hyfinite
          have := number_of_isFinite hcfinite
          omega
  | finite hxproduct hxrounds hxfinite hcfinite =>
      refine ⟨hxproduct, hproduct, ?_⟩
      cases productPlace hynumber hcnumber hy hc with
      | undefined hyproduct => cases hproduct.symm.trans hyproduct
      | top _ hyrank =>
          have := rank_bounds hxproduct
          omega
      | finite _ hyrounds hyfinite =>
          have hvalue := (value_le_iff hxfinite hyfinite).2 hle
          exact hxrounds.mono hyrounds
            (mul_le_mul_of_nonneg_right hvalue (value_nonneg hcfinite hc))

theorem rank_mul_of_rank_eq_zero {x y : Float} (hx : rank x = 0) (hy : 0 ≤ rank y)
    (h : (x * y).isNaN = false) : rank (x * y) = 0 := by
  have hpos := infinite_pos
  obtain ⟨hxnumber, hynumber⟩ := number_of_mul h
  cases productPlace hxnumber hynumber hx.ge hy with
  | undefined hproduct => cases h.symm.trans hproduct
  | top _ _ hends => omega
  | finite _ hrounds hxfinite hyfinite =>
      rw [value_of_rank_eq_zero hxfinite hx, zero_mul] at hrounds
      have hbelow := rounds_zero.mono hrounds (le_refl 0)
      have habove := hrounds.mono rounds_zero (le_refl 0)
      omega

/-! ### Counts -/

theorem finite_of_rank_lt {x : Float} (h : x.isNaN = false) (hlow : -infinite < rank x)
    (hhigh : rank x < infinite) : x.isFinite = true := by
  obtain ⟨hnan, -⟩ | ⟨-, s, -, hrank⟩ | ⟨-, hfinite, -⟩ := float_cases x
  · rw [h] at hnan
    cases hnan
  · rw [hrank] at hlow hhigh
    cases s <;> simp only [Sign.apply] at hlow hhigh <;> omega
  · exact hfinite

/-- Counts are rounded, and none is too large. -/
theorem rounds_ofNat (n : Nat) :
    (Decimal.ofNat n).isFinite = true ∧ Rounds n.toUInt64.toNat (rank (Decimal.ofNat n)) := by
  have hpos := infinite_pos
  obtain ⟨s, k, hsized, hrounds⟩ := exists_sized_normalize n.toUInt64.toNat 0
  obtain ⟨hnumber, hrank⟩ := rank_ofModel hsized
  have hdef : Decimal.ofNat n = .ofModel (Float.Model.pack
      (UnpackedFloat.normalize Format.binary64 n.toUInt64.toNat 0 .positive)) := rfl
  rw [← hdef] at hrank hnumber
  rw [← hrank, zpow_zero, mul_one, Int.cast_natCast] at hrounds
  refine ⟨?_, hrounds⟩
  have hlow := rounds_zero.mono hrounds (Nat.cast_nonneg _)
  have hbound : Canonical (2 ^ 52) 12 := ⟨by norm_num, by norm_num, .inl (Nat.le_refl _)⟩
  have hplace : place (2 ^ 52) 12 < infinite := by decide
  have hhigh := hrounds.mono (.nonneg (size_nonneg _ _) hbound.covers.nearest) (by
    have hlt := n.toUInt64.toNat_lt
    have : (n.toUInt64.toNat : ℚ) ≤ (2 ^ 64 : Nat) := by exact_mod_cast hlt.le
    refine this.trans (le_of_eq ?_)
    norm_num)
  exact finite_of_rank_lt hnumber (by omega) (by omega)

theorem ofNat_le_ofNat {n k : Nat} (h : n ≤ k) (hk : k < 2 ^ 64) :
    Decimal.ofNat n ≤ Decimal.ofNat k := by
  obtain ⟨hnfinite, hnrounds⟩ := rounds_ofNat n
  obtain ⟨hkfinite, hkrounds⟩ := rounds_ofNat k
  have hn64 : n.toUInt64.toNat = n := Nat.mod_eq_of_lt (by omega)
  have hk64 : k.toUInt64.toNat = k := Nat.mod_eq_of_lt hk
  rw [hn64] at hnrounds
  rw [hk64] at hkrounds
  refine (le_iff _ _).2 ⟨(number_of_isFinite hnfinite).1, (number_of_isFinite hkfinite).1, ?_⟩
  exact hnrounds.mono hkrounds (by exact_mod_cast h)

theorem ofNat_nonneg (n : Nat) : 0 ≤ Decimal.ofNat n :=
  (nonneg_iff _).2 ⟨(number_of_isFinite (rounds_ofNat n).1).1,
    rounds_zero.mono (rounds_ofNat n).2 (Nat.cast_nonneg _)⟩

theorem rank_ofNat_pos {n : Nat} (hpos : 0 < n) (h : n < 2 ^ 64) : 0 < rank (Decimal.ofNat n) := by
  have hone : 0 < rank (Decimal.ofNat 1) := by decide
  have hle := ((le_iff _ _).1 (ofNat_le_ofNat (n := 1) hpos h)).2.2
  omega

theorem value_one : (1 : Float).isFinite = true ∧ value 1 = 1 := by
  have hfinite : (1 : Float).isFinite = true := by decide
  have hplace : magnitude 1 = place (2 ^ 52) (-52) := by decide
  have hcanonical : Canonical (2 ^ 52) (-52) := ⟨by norm_num, by norm_num, .inl (Nat.le_refl _)⟩
  have hsign : signOf 1 = .positive := rfl
  refine ⟨hfinite, ?_⟩
  rw [value, (sized_of_isFinite hfinite).1.valueOf_eq, hplace, ofMagnitude_place hcanonical, hsign]
  simp only [Sign.apply]
  norm_num

theorem one_le_value_ofNat {n : Nat} (hpos : 0 < n) (h : n < 2 ^ 64) :
    1 ≤ value (Decimal.ofNat n) := by
  obtain ⟨hone, hvalue⟩ := value_one
  obtain ⟨hfinite, hrounds⟩ := rounds_ofNat n
  have hn : n.toUInt64.toNat = n := Nat.mod_eq_of_lt h
  have hplace := rounds_value hone
  rw [hvalue] at hplace
  rw [hn] at hrounds
  rw [← hvalue, value_le_iff hone hfinite]
  exact hplace.mono hrounds (by exact_mod_cast hpos)

/-- Multiplying by a count makes no float smaller. -/
theorem rank_le_rank_mul_ofNat {x : Float} (hx : 0 ≤ x) {n : Nat} (hpos : 0 < n)
    (h : n < 2 ^ 64) : rank x ≤ rank (x * Decimal.ofNat n) := by
  have hinf := infinite_pos
  have hcount := rank_ofNat_pos hpos h
  obtain ⟨hfinite, -⟩ := rounds_ofNat n
  have hn := number_of_isFinite hfinite
  rw [nonneg_iff] at hx
  cases productPlace hx.1 hn.1 hx.2 hcount.le with
  | undefined _ hends => omega
  | top _ hrank =>
      have := rank_bounds hx.1
      omega
  | finite _ hrounds hxfinite =>
      have hone := one_le_value_ofNat hpos h
      have hvalue := value_nonneg hxfinite hx.2
      exact (rounds_value hxfinite).mono hrounds (by nlinarith)

/-! ### Shares -/

/-- A share of a share is a share. -/
theorem mul_le_one {x y : Float} (hx : 0 ≤ x ∧ x ≤ 1) (hy : 0 ≤ y ∧ y ≤ 1) :
    0 ≤ x * y ∧ x * y ≤ 1 := by
  obtain ⟨hone, hvalue⟩ := value_one
  have hplace := rounds_value hone
  rw [hvalue] at hplace
  have hinf : rank 1 < infinite := by decide
  rw [nonneg_iff, le_iff] at hx hy
  obtain ⟨⟨hxnumber, hxsign⟩, -, -, hxone⟩ := hx
  obtain ⟨⟨hynumber, hysign⟩, -, -, hyone⟩ := hy
  -- no share is infinite, so the product is the exact one, rounded
  cases productPlace hxnumber hynumber hxsign hysign with
  | undefined _ hends => omega
  | top _ _ hends => omega
  | finite hproduct hrounds hxfinite hyfinite =>
      have hxvalue := value_nonneg hxfinite hxsign
      have hyvalue := value_nonneg hyfinite hysign
      have hxle : value x ≤ 1 := by
        rw [← hvalue]
        exact (value_le_iff hxfinite hone).2 hxone
      have hyle : value y ≤ 1 := by
        rw [← hvalue]
        exact (value_le_iff hyfinite hone).2 hyone
      rw [nonneg_iff, le_iff]
      exact ⟨⟨hproduct, rounds_zero.mono hrounds (mul_nonneg hxvalue hyvalue)⟩, hproduct,
        (number_of_isFinite hone).1, hrounds.mono hplace (mul_le_one₀ hxle hyvalue hyle)⟩

/-- A share of a count is a number. -/
theorem isNaN_ofNat_mul (n : Nat) {x : Float} (hx : 0 ≤ x ∧ x ≤ 1) :
    (ofNat n * x).isNaN = false := by
  have hinf : rank 1 < infinite := by decide
  have hcount := number_of_isFinite (rounds_ofNat n).1
  have hsign := ((nonneg_iff _).1 (ofNat_nonneg n)).2
  rw [nonneg_iff, le_iff] at hx
  obtain ⟨⟨hnumber, hxsign⟩, -, -, hone⟩ := hx
  -- only nothing taken infinitely often is no number, and neither of the two is infinite
  cases productPlace hcount.1 hnumber hsign hxsign with
  | undefined _ hends => omega
  | top hproduct => exact hproduct
  | finite hproduct => exact hproduct

/-! ### The larger of two -/

theorem zero_le_one : (0 : Float) ≤ 1.0 := by decide

theorem larger_cases (x y : Float) : larger x y = x ∨ larger x y = y := by
  unfold larger
  split
  · exact .inr rfl
  · split
    · exact .inl rfl
    · split
      · exact .inr rfl
      · exact .inl rfl

theorem larger_nonneg_left {x : Float} (hx : 0 ≤ x) (y : Float) : 0 ≤ larger x y := by
  have hnumber := ((nonneg_iff x).1 hx).1
  unfold larger
  rw [hnumber]
  simp only [Bool.false_eq_true, if_false]
  split
  · exact hx
  · split
    · next hless =>
        rw [nonneg_iff] at hx ⊢
        rw [lt_iff] at hless
        exact ⟨hless.2.1, by omega⟩
    · exact hx

theorem larger_nonneg_right (x : Float) {y : Float} (hy : 0 ≤ y) : 0 ≤ larger x y := by
  have hnumber := ((nonneg_iff y).1 hy).1
  unfold larger
  rw [hnumber]
  split
  · exact hy
  · next hx =>
      rw [Bool.not_eq_true] at hx
      simp only [Bool.false_eq_true, if_false]
      split
      · exact hy
      · next hless =>
          rw [nonneg_iff] at hy ⊢
          rw [lt_iff] at hless
          have hrank : ¬ rank x < rank y := fun h => hless ⟨hx, hnumber, h⟩
          exact ⟨hx, by omega⟩

end AskSql.Decimal
