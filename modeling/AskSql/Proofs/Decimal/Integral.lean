import AskSql.Proofs.Decimal.Product
import AskSql.Text.Numeral

/-!
# Whole numbers as floats

The float nearest to a whole number is this number, rounded (`nearestFloat_cases`).  It is the
number itself if all its digits but the 53 first ones are zeros, to the base of two, and it is not
too large (`FitsMantissa`); otherwise it is another number or infinite (`value_nearestFloat_iff`).
Made a number of 64 bits again, the float is rounded down and cut off at what 64 bits hold
(`toNat_toUInt64`), so below that a number comes back just if it fits, and the last one of all comes
back as it is cut off (`toUInt64_nearestFloat_eq_iff`).
-/

namespace AskSql.Decimal

open Float.Model Float.Model.UnpackedFloat
open Text (nearestFloat)

/-- The number consists of 53 bits at most, and zeros behind them. -/
def FitsMantissa (n : Nat) : Prop :=
  ∃ m e : Nat, m < 2 ^ 53 ∧ n = m * 2 ^ e

theorem fitsMantissa_of_lt {n : Nat} (h : n < 2 ^ 53) : FitsMantissa n :=
  ⟨n, 0, h, by rw [pow_zero, Nat.mul_one]⟩

/-- An odd number has no zeros behind its mantissa. -/
theorem not_fitsMantissa {n : Nat} (hodd : n % 2 = 1) (hlarge : 2 ^ 53 ≤ n) :
    ¬FitsMantissa n := by
  rintro ⟨m, e, hm, rfl⟩
  cases e with
  | zero => omega
  | succ e =>
      rw [pow_succ, ← Nat.mul_assoc] at hodd
      omega

/-- A mantissa with zeros behind it up to the largest exponent. -/
theorem mul_two_pow_lt {m k : Nat} (hm : m < 2 ^ 53) (hk : k ≤ 971) : m * 2 ^ k < 2 ^ 1024 := by
  have hmul : m * 2 ^ k < 2 ^ 53 * 2 ^ k := Nat.mul_lt_mul_of_pos_right hm (Nat.two_pow_pos k)
  rw [← Nat.pow_add] at hmul
  exact hmul.trans_le (pow_le_pow_right₀ one_le_two (by omega))

theorem lt_of_lt_mantissa {n : Nat} (h : n < 2 ^ 53) : n < 2 ^ 1024 := by
  have hlt := mul_two_pow_lt h (Nat.zero_le 971)
  rwa [pow_zero, Nat.mul_one] at hlt

/-! ### The sizes of whole numbers -/

theorem place_lt_infinite {m : Nat} {e : Int} (hm : m < 2 ^ 53) (he : e ≤ 971) :
    place m e < infinite := by
  unfold place infinite
  omega

/-- A number that fits and is not too large has a place among the finite sizes. -/
theorem FitsMantissa.exists_canonical {n : Nat} (h : FitsMantissa n) (hpos : 0 < n)
    (hlt : n < 2 ^ 1024) :
    ∃ m e, 0 < m ∧ Canonical m e ∧ place m e < infinite ∧ (m : ℚ) * 2 ^ e = n := by
  obtain ⟨m, e, hm, rfl⟩ := h
  have hmpos : 0 < m := Nat.pos_of_mul_pos_right hpos
  have hlog : m.log2 ≤ 52 := by
    have := (Nat.log2_lt hmpos.ne').2 hm
    omega
  -- zeros are put behind the mantissa until it has all its 53 bits
  obtain ⟨k, hk⟩ : ∃ k, m.log2 + k = 52 := ⟨52 - m.log2, by omega⟩
  have hfull : (m * 2 ^ k).log2 = 52 := by rw [log2_mul_two_pow hmpos, hk]
  have hpos' : 0 < m * 2 ^ k := Nat.mul_pos hmpos (Nat.two_pow_pos k)
  have hbits : m * 2 ^ k < 2 ^ 53 := (Nat.log2_lt hpos'.ne').1 (by omega)
  have hlead : 2 ^ 52 ≤ m * 2 ^ k := (Nat.le_log2 hpos'.ne').1 hfull.ge
  have hexponent : e ≤ 971 + k := by
    by_contra hlarge
    have hpow : 2 ^ (972 + k) ≤ 2 ^ e := Nat.pow_le_pow_right (by norm_num) (by omega)
    have hmul : 2 ^ 52 * 2 ^ (972 + k) ≤ m * 2 ^ k * 2 ^ e := Nat.mul_le_mul hlead hpow
    have hsame : m * 2 ^ k * 2 ^ e = m * 2 ^ e * 2 ^ k := Nat.mul_right_comm ..
    have hsum : 2 ^ 52 * 2 ^ (972 + k) = 2 ^ 1024 * 2 ^ k := by
      rw [← Nat.pow_add, ← Nat.pow_add]
      congr 1
      omega
    rw [hsame, hsum] at hmul
    exact absurd (Nat.le_of_mul_le_mul_right hmul (Nat.two_pow_pos k)) (Nat.not_le.2 hlt)
  refine ⟨m * 2 ^ k, e - k, hpos', ⟨hbits, by omega, .inl hlead⟩,
    place_lt_infinite hbits (by omega), ?_⟩
  have hshift := shiftLeft_mul_zpow m k e
  rw [Nat.shiftLeft_eq] at hshift
  rw [hshift, zpow_natCast]
  push_cast
  rfl

/-- A float that is rounded from a number with a place among the finite sizes is this number. -/
theorem value_of_rounds {x : Float} {m : Nat} {e : Int} (hm : 0 < m) (hcanonical : Canonical m e)
    (hfinite : place m e < infinite) (hx : x.isNaN = false)
    (hrounds : Rounds ((m : ℚ) * 2 ^ e) (rank x)) : x.isFinite = true ∧ value x = m * 2 ^ e := by
  have hown : Rounds ((m : ℚ) * 2 ^ e) (place m e : Nat) := by
    have hnearest := hcanonical.covers.nearest
    rw [Nat.min_eq_left hfinite.le] at hnearest
    exact .nonneg (size_nonneg _ _) hnearest
  have hrank : rank x = place m e :=
    le_antisymm (hrounds.mono hown le_rfl) (hown.mono hrounds le_rfl)
  have hpos : 0 < place m e := (Sized.finite (s := .positive) hm hcanonical).place_pos
  have hxfinite : x.isFinite = true := by
    have := infinite_pos
    exact finite_of_rank_lt hx (by omega) (by omega)
  refine ⟨hxfinite, ?_⟩
  -- the place is not zero, so it tells the sign
  have hsame : signOf x = .positive ∧ magnitude x = place m e := by
    unfold rank at hrank
    cases hs : signOf x <;> rw [hs] at hrank <;> simp only [Sign.apply] at hrank
    · omega
    · exact ⟨rfl, by omega⟩
  rw [value, (sized_of_isFinite hxfinite).1.valueOf_eq, hsame.1, hsame.2,
    ofMagnitude_place hcanonical]
  simp only [Sign.apply, Int.cast_one, one_mul]

/-- A finite float that is not negative, as its mantissa and its exponent. -/
theorem exists_value_eq {x : Float} (hx : x.isFinite = true) (hsign : 0 ≤ value x) :
    ∃ (m : Nat) (e : Int), m < 2 ^ 53 ∧ e ≤ 971 ∧ value x = m * 2 ^ e := by
  obtain ⟨hsized, hlt⟩ := sized_of_isFinite hx
  rw [value] at hsign ⊢
  generalize x.toModel.unpack = u at hsized hsign ⊢
  generalize magnitude x = n at hsized hlt
  generalize signOf x = s at hsized
  cases hsized with
  | zero => exact ⟨0, 0, by norm_num, by norm_num, by simp [valueOf]⟩
  | @finite m e hm hc =>
      -- a larger exponent stands behind the last place
      have hhigh : e ≤ 971 := by
        obtain ⟨hmantissa, hleast, hnormal⟩ := hc
        unfold place infinite at hlt
        omega
      refine ⟨m, e, hc.mantissa_lt, hhigh, ?_⟩
      have hsize : (0 : ℚ) < m * 2 ^ e := mul_pos (by exact_mod_cast hm) (zpow_pos (by norm_num) e)
      cases s with
      | positive => simp [valueOf, Sign.apply]
      | negative =>
          simp only [valueOf, Sign.apply] at hsign
          push_cast at hsign
          linarith

/-- A float that is a whole number has the bits of one. -/
theorem fitsMantissa_of_value {x : Float} {n : Nat} (hx : x.isFinite = true)
    (h : value x = n) : FitsMantissa n ∧ n < 2 ^ 1024 := by
  obtain ⟨m, e, hm, hhigh, hvalue⟩ := exists_value_eq hx (by rw [h]; exact Nat.cast_nonneg n)
  rw [h] at hvalue
  obtain ⟨k, rfl | rfl⟩ := e.eq_nat_or_neg
  · rw [zpow_natCast] at hvalue
    have hn : n = m * 2 ^ k := by exact_mod_cast hvalue
    exact ⟨⟨m, k, hm, hn⟩, hn ▸ mul_two_pow_lt hm (by omega)⟩
  · -- what is divided is no larger than before
    rw [zpow_neg, zpow_natCast, ← div_eq_mul_inv, eq_div_iff (by positivity)] at hvalue
    have hm' : n * 2 ^ k = m := by exact_mod_cast hvalue
    have hn : n < 2 ^ 53 := by
      have := Nat.le_mul_of_pos_right n (Nat.two_pow_pos k)
      omega
    exact ⟨fitsMantissa_of_lt hn, lt_of_lt_mantissa hn⟩

/-! ### The nearest float -/

theorem value_ofNat {n : Nat} (h : n < 2 ^ 53) : value (Decimal.ofNat n) = n := by
  obtain ⟨hfinite, hrounds⟩ := rounds_ofNat n
  have hn : n.toUInt64.toNat = n := Nat.mod_eq_of_lt (by omega)
  rw [hn] at hrounds
  obtain rfl | hpos := Nat.eq_zero_or_pos n
  · have hrank : rank (Decimal.ofNat 0) = 0 := by decide
    rw [value_of_rank_eq_zero hfinite hrank, Nat.cast_zero]
  · obtain ⟨m, e, hm, hcanonical, hplace, hvalue⟩ :=
      (fitsMantissa_of_lt h).exists_canonical hpos
        (lt_of_lt_mantissa h)
    rw [← hvalue] at hrounds ⊢
    exact (value_of_rounds hm hcanonical hplace (number_of_isFinite hfinite).1 hrounds).2

/-- A number in decimal notation without a fraction is rounded. -/
theorem rounds_ofScientific {n : Nat} (hpos : 0 < n) :
    (Float.ofScientific n false 0).isNaN = false ∧
      Rounds n (rank (Float.ofScientific n false 0)) := by
  -- small numbers are taken as they are, and the others are rounded once
  by_cases hsmall : n < 2 ^ 53
  · have hone : Float.exactlyRepresentablePowersOfTen[0] = 1 := by decide
    have heq : Float.ofScientific n false 0 = Decimal.ofNat n * 1 := by
      rw [Float.ofScientific, dif_pos ⟨hsmall, by norm_num⟩, ← hone]
      rfl
    have hproduct := rounds_mul (rounds_ofNat n).1 value_one.1
    rwa [value_ofNat hsmall, value_one.2, mul_one, ← heq] at hproduct
  · have heq : Float.ofScientific n false 0 =
        .ofModel (Float.Model.pack (UnpackedFloat.ofScientific Format.binary64 n 0)) := by
      rw [Float.ofScientific, dif_neg fun h => hsmall h.1]
      rfl
    have hhigh : ¬ (0 : Int) > 2 ^ Format.binary64.exponentBits := by decide
    have hlow : ¬ (0 : Int) < -(2 ^ Format.binary64.exponentBits + n.log2) := by
      have : (0 : Int) < 2 ^ Format.binary64.exponentBits := by decide
      omega
    have hunit : (-53 + 0 : Int) ≤ unitExponent (n <<< 53 * 10 ^ (0 : Int).toNat) (-53 + 0) := by
      have hlog := log2_mul_two_pow hpos 53
      rw [Int.toNat_zero, pow_zero, Nat.mul_one, Nat.shiftLeft_eq]
      unfold unitExponent
      omega
    obtain ⟨k, hsized, hcovers⟩ := exists_sized_roundWithAccuracy .positive hunit
    have hvalue : ((n <<< 53 * 10 ^ (0 : Int).toNat : Nat) : ℚ) * 2 ^ (-53 + 0 : Int) = n := by
      have hshift := shiftLeft_mul_zpow n 53 0
      rw [zpow_zero, mul_one] at hshift
      rw [Int.toNat_zero, pow_zero, Nat.mul_one]
      exact hshift
    have hunpacked : UnpackedFloat.ofScientific Format.binary64 n 0 =
        UnpackedFloat.roundWithAccuracy Format.binary64 .positive
          (n <<< 53 * 10 ^ (0 : Int).toNat) (-53 + 0) .exact := by
      rw [UnpackedFloat.ofScientific, dif_neg hpos.ne', if_neg hhigh, if_neg hlow,
        if_pos (Int.le_refl 0)]
      rfl
    rw [← hunpacked] at hsized
    obtain ⟨hnumber, hrank⟩ := rank_ofModel hsized
    rw [← heq] at hnumber hrank
    refine ⟨hnumber, ?_⟩
    rw [hrank]
    rw [hvalue] at hcovers
    exact .nonneg (Nat.cast_nonneg n) hcovers.nearest

theorem two_pow_le_ten_pow {a b : Nat} (h : a ≤ 3 * b) : 2 ^ a ≤ 10 ^ b :=
  calc 2 ^ a ≤ 2 ^ (3 * b) := pow_le_pow_right₀ one_le_two h
    _ = (2 ^ 3) ^ b := pow_mul 2 3 b
    _ ≤ 10 ^ b := Nat.pow_le_pow_left (by norm_num) b

/-- The nearest float of a number with many digits is infinite; that of any other is the number,
rounded. -/
theorem nearestFloat_cases (n : Nat) :
    ((nearestFloat n 0).isFinite = false ∧ 2 ^ 1024 ≤ n ∧ nearestFloat n 0 = 1.0 / 0.0) ∨
      (nearestFloat n 0).isNaN = false ∧ Rounds n (rank (nearestFloat n 0)) := by
  obtain rfl | hpos := Nat.eq_zero_or_pos n
  · have hzero : nearestFloat 0 0 = 0 := rfl
    have hnumber : (0 : Float).isNaN = false := by decide
    have hrank : rank 0 = 0 := by decide
    right
    rw [hzero, hrank]
    exact ⟨hnumber, rounds_zero⟩
  · have hne : (n == 0) = false := beq_false_of_ne hpos.ne'
    simp only [nearestFloat, hne, Bool.false_eq_true, if_false, add_zero]
    -- with too many digits it is infinite without being rounded
    split
    · next hmany =>
        left
        refine ⟨by decide, ?_, rfl⟩
        have hlength : 400 < (Nat.toDigits 10 n).length := by exact_mod_cast hmany
        have hten : 10 ^ 400 ≤ n := by
          by_contra hless
          have := (Nat.length_toDigits_le_iff (by norm_num) (by norm_num)).2 (Nat.not_le.1 hless)
          omega
        exact (two_pow_le_ten_pow (by norm_num)).trans hten
    · rw [if_neg (by omega)]
      exact .inr (rounds_ofScientific hpos)

/-- The nearest float is the number itself just if the number fits. -/
theorem value_nearestFloat_iff (n : Nat) :
    ((nearestFloat n 0).isFinite = true ∧ value (nearestFloat n 0) = n) ↔
      FitsMantissa n ∧ n < 2 ^ 1024 := by
  refine ⟨fun ⟨hfinite, hvalue⟩ => fitsMantissa_of_value hfinite hvalue, fun ⟨hfits, hlt⟩ => ?_⟩
  obtain ⟨-, hlarge, -⟩ | ⟨hnumber, hrounds⟩ := nearestFloat_cases n
  · exact absurd hlt (Nat.not_lt.2 hlarge)
  obtain rfl | hpos := Nat.eq_zero_or_pos n
  · have hzero : nearestFloat 0 0 = 0 := rfl
    have hfinite : (0 : Float).isFinite = true := by decide
    rw [hzero, Nat.cast_zero]
    exact ⟨hfinite, value_of_rank_eq_zero hfinite (by decide)⟩
  · obtain ⟨m, e, hm, hcanonical, hplace, hvalue⟩ := hfits.exists_canonical hpos hlt
    rw [← hvalue] at hrounds ⊢
    exact value_of_rounds hm hcanonical hplace hnumber hrounds

/-- Numbers of 64 bits are not too large for a float. -/
theorem isFinite_nearestFloat {n : Nat} (h : n < 2 ^ 64) :
    (nearestFloat n 0).isFinite = true ∧ 0 ≤ value (nearestFloat n 0) := by
  obtain ⟨-, hlarge, -⟩ | ⟨hnumber, hrounds⟩ := nearestFloat_cases n
  · have := pow_le_pow_right₀ (one_le_two (α := Nat)) (by norm_num : 64 ≤ 1024)
    omega
  have hpos := infinite_pos
  have hcanonical : Canonical (2 ^ 52) 12 := ⟨by norm_num, by norm_num, .inl (Nat.le_refl _)⟩
  have hplace : place (2 ^ 52) 12 < infinite := by decide
  have hlow := rounds_zero.mono hrounds (Nat.cast_nonneg _)
  have hhigh := hrounds.mono (.nonneg (size_nonneg _ _) hcanonical.covers.nearest) (by
    have hle : (n : ℚ) ≤ (2 ^ 64 : Nat) := by exact_mod_cast h.le
    refine hle.trans (le_of_eq ?_)
    norm_num)
  have hfinite := finite_of_rank_lt hnumber (by omega) (by omega)
  exact ⟨hfinite, value_nonneg hfinite hlow⟩

/-! ### Back to numbers of 64 bits -/

/-- What lies behind the point is left out. -/
theorem roundToInt_eq (m : Nat) (e : Int) : roundToInt .positive m e = ⌊(m : ℚ) * 2 ^ e⌋ := by
  have hshifted := shifted_shiftRight (m <<< (e - 0).toNat) (0 - (e - (e - 0).toNat)).toNat
  have hwhole : roundToInt .positive m e =
      ((m <<< (e - 0).toNat / 2 ^ (0 - (e - (e - 0).toNat)).toNat : Nat) : Int) := by
    rw [← hshifted.mantissa]
    rfl
  have hexponent : e - ((e - 0).toNat : Int) = -((0 - (e - (e - 0).toNat)).toNat : Int) := by omega
  have hshift := shiftLeft_mul_zpow m (e - 0).toNat e
  rw [hexponent, zpow_neg, zpow_natCast, ← div_eq_mul_inv] at hshift
  rw [hwhole, ← hshift]
  exact_mod_cast (Rat.floor_natCast_div_natCast _ _).symm

/-- A float that is not negative is rounded down, and cut off at what 64 bits hold. -/
theorem toNat_toUInt64 {x : Float} (hx : x.isFinite = true) (hsign : 0 ≤ value x) :
    x.toUInt64.toNat = min ⌊value x⌋.toNat (2 ^ 64 - 1) := by
  have hclamp (k : Nat) : (UInt64.ofNatClamp k).toNat = min k (2 ^ 64 - 1) := by
    unfold UInt64.ofNatClamp
    split
    · next hlt =>
        rw [UInt64.toNat_ofNatLT]
        change k < 2 ^ 64 at hlt
        omega
    · next hge =>
        rw [UInt64.toNat_ofNatLT]
        change ¬k < 2 ^ 64 at hge
        change 2 ^ 64 - 1 = _
        omega
  have hdef : x.toUInt64 =
      UInt64.ofNatClamp (toInt 0 (UInt64.size - 1) x.toModel.unpack).toNat := rfl
  rw [hdef, hclamp]
  obtain ⟨hsized, -⟩ := sized_of_isFinite hx
  rw [value] at hsign ⊢
  generalize x.toModel.unpack = u at hsized hsign ⊢
  generalize magnitude x = n at hsized
  generalize signOf x = s at hsized
  cases hsized with
  | zero => simp [toInt, valueOf]
  | @finite m e hm hc =>
      cases s with
      | positive =>
          have hvalue : valueOf (.finite .positive m e hm) = m * 2 ^ e := by
            simp [valueOf, Sign.apply]
          rw [hvalue, toInt, roundToInt_eq]
      | negative =>
          have hsize : (0 : ℚ) < m * 2 ^ e :=
            mul_pos (by exact_mod_cast hm) (zpow_pos (by norm_num) e)
          simp only [valueOf, Sign.apply] at hsign
          push_cast at hsign
          linarith

/-- A number of 64 bits comes back from the nearest float just if it fits, or is the last one. -/
theorem toUInt64_nearestFloat_eq_iff {n : Nat} (h : n < 2 ^ 64) :
    (nearestFloat n 0).toUInt64.toNat = n ↔ FitsMantissa n ∨ n = 2 ^ 64 - 1 := by
  obtain ⟨hfinite, hsign⟩ := isFinite_nearestFloat h
  have hback := toNat_toUInt64 hfinite hsign
  constructor
  · intro heq
    by_cases hlast : n = 2 ^ 64 - 1
    · exact .inr hlast
    left
    by_cases hsmall : n < 2 ^ 53
    · exact fitsMantissa_of_lt hsmall
    have hfloor : ⌊value (nearestFloat n 0)⌋.toNat = n := by omega
    obtain ⟨m, e, hm, -, hvalue⟩ := exists_value_eq hfinite hsign
    rw [hvalue] at hfloor
    obtain ⟨k, rfl | rfl⟩ := e.eq_nat_or_neg
    · have hcast : (m : ℚ) * 2 ^ (k : Int) = (m * 2 ^ k : Nat) := by
        rw [zpow_natCast]
        push_cast
        rfl
      rw [hcast, Int.floor_natCast, Int.toNat_natCast] at hfloor
      exact ⟨m, k, hm, hfloor.symm⟩
    · -- with a point in its mantissa the float would be smaller
      have hcast : (m : ℚ) * 2 ^ (-k : Int) = (m : ℚ) / (2 ^ k : Nat) := by
        rw [zpow_neg, zpow_natCast, div_eq_mul_inv]
        push_cast
        rfl
      rw [hcast, Rat.floor_natCast_div_natCast] at hfloor
      have hdiv : m / 2 ^ k ≤ m := Nat.div_le_self _ _
      omega
  · rintro (hfits | rfl)
    · have hlarge : n < 2 ^ 1024 := h.trans_le (pow_le_pow_right₀ one_le_two (by norm_num))
      have hvalue := ((value_nearestFloat_iff n).2 ⟨hfits, hlarge⟩).2
      rw [hback, hvalue, Int.floor_natCast, Int.toNat_natCast]
      omega
    · decide +kernel

/-! ### Signs -/

theorem isFinite_neg (x : Float) : (-x).isFinite = x.isFinite := by
  have hneg : -x = .ofModel (Float.Model.pack x.toModel.unpack.neg) := rfl
  have hfinite : x.isFinite = x.toModel.unpack.isFinite := rfl
  obtain ⟨hu, -⟩ | ⟨hu, -⟩ | ⟨hu, hn⟩ := unpack_cases x
  · rw [hneg, hfinite, hu]
    decide
  · rw [hneg, hfinite, hu]
    cases signOf x <;> decide
  · have hxfinite : x.isFinite = true := hfinite.trans hu.isFinite_eq
    have hbounds := number_of_isFinite hxfinite
    obtain ⟨hnumber, hrank⟩ := rank_ofModel hu.neg.1
    rw [← hneg] at hnumber hrank
    have hopposite : rank (-x) = -rank x := by
      rw [hrank, Nat.min_eq_left hn.le, apply_neg, rank]
    rw [hxfinite]
    exact finite_of_rank_lt hnumber (by omega) (by omega)

/-- The opposite of a float stands for the opposite number. -/
theorem value_neg {x : Float} (hx : x.isFinite = true) : value (-x) = -value x := by
  have hneg : -x = .ofModel (Float.Model.pack x.toModel.unpack.neg) := rfl
  obtain ⟨hsized, hn⟩ := sized_of_isFinite hx
  obtain ⟨hsign, hmagnitude⟩ := hsized.neg.1.pack
  rw [← hneg] at hsign hmagnitude
  rw [Nat.min_eq_left hn.le] at hmagnitude
  have hfinite : (-x).isFinite = true := (isFinite_neg x).trans hx
  rw [value, value, (sized_of_isFinite hfinite).1.valueOf_eq, hsized.valueOf_eq, hsign, hmagnitude,
    ← Nat.cast_one, apply_neg, Int.cast_neg, neg_mul]

end AskSql.Decimal
