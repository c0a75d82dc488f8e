import AskSql.Proofs.Decimal.Nearest
import AskSql.Decimal.Rounding
import Mathlib

/-!
# What rounding comes up with

Floats are added, multiplied and divided exactly, and the result is rounded: bits are shifted out of
the mantissa until it fits, and what was shifted out decides on the last bit that is left, together
with what a division has left over.  This is a rounded quotient (`Shifted.roundedMantissa`), and the
float that comes of it has the place that takes the exact result in (`exists_sized_roundQuotient`,
`exists_sized_roundWithAccuracy`, `exists_sized_normalize`).
-/

namespace AskSql.Decimal

open Float.Model Float.Model.UnpackedFloat

/-! ### Shifted mantissas -/

/-- The quotient of `m` by `d` with what is left over: after its last place stand a half and what is
below it. -/
structure Shifted (m d : Nat) (em : ExtendedMantissa) : Prop where
  mantissa : em.mantissa = m / d
  roundBit : em.roundBit = true ↔ d ≤ 2 * (m % d)
  stickyBit : em.stickyBit = true ↔ m % d ≠ 0 ∧ 2 * (m % d) ≠ d

/-- What a division has left over. -/
theorem shifted_ofMantissaAndAccuracy (m : Nat) {d : Nat} (hd : 0 < d) :
    Shifted m d (.ofMantissaAndAccuracy (m / d) (accuracyOfFraction (m % d) d)) := by
  unfold accuracyOfFraction
  split
  · exact ⟨rfl, iff_of_false Bool.false_ne_true (by omega),
      iff_of_false Bool.false_ne_true (by omega)⟩
  · cases hhalf : compare (2 * (m % d)) d with
    | lt =>
        rw [Nat.compare_eq_lt] at hhalf
        exact ⟨rfl, iff_of_false Bool.false_ne_true (by omega), iff_of_true rfl (by omega)⟩
    | eq =>
        rw [Nat.compare_eq_eq] at hhalf
        exact ⟨rfl, iff_of_true rfl (by omega), iff_of_false Bool.false_ne_true (by omega)⟩
    | gt =>
        rw [Nat.compare_eq_gt] at hhalf
        exact ⟨rfl, iff_of_true rfl (by omega), iff_of_true rfl (by omega)⟩

theorem Shifted.shiftRightOne {m d : Nat} {em : ExtendedMantissa} (h : Shifted m d em)
    (hd : 0 < d) : Shifted m (d * 2) em.shiftRightOne := by
  have hrest : m % d < d := Nat.mod_lt m hd
  have hsplit : m % (d * 2) = m % d + d * (m / d % 2) := Nat.mod_mul
  have hbit : m / d % 2 = 0 ∨ m / d % 2 = 1 := by omega
  constructor
  · rw [ExtendedMantissa.shiftRightOne, h.mantissa, Nat.div_div_eq_div_mul]
  · simp only [ExtendedMantissa.shiftRightOne, h.mantissa, bne_iff_ne, hsplit]
    obtain hbit | hbit := hbit
    · simp only [hbit]
      omega
    · simp only [hbit]
      omega
  · simp only [ExtendedMantissa.shiftRightOne, Bool.or_eq_true, h.roundBit, h.stickyBit, hsplit]
    obtain hbit | hbit := hbit
    · simp only [hbit]
      omega
    · simp only [hbit]
      omega

theorem Shifted.shiftRight {m d : Nat} {em : ExtendedMantissa} (h : Shifted m d em) (hd : 0 < d)
    (k : Nat) : Shifted m (d * 2 ^ k) (em >>> k) := by
  induction k with
  | zero => rwa [Nat.pow_zero, Nat.mul_one]
  | succ k ih =>
      rw [Nat.pow_succ, ← Nat.mul_assoc]
      exact ih.shiftRightOne (Nat.mul_pos hd (Nat.two_pow_pos k))

/-- Of a mantissa nothing is left over but the bits that are shifted out. -/
theorem shifted_shiftRight (m k : Nat) :
    Shifted m (2 ^ k) (ExtendedMantissa.ofMantissaAndAccuracy m .exact >>> k) := by
  have hshifted := (shifted_ofMantissaAndAccuracy m Nat.one_pos).shiftRight Nat.one_pos k
  rw [Nat.div_one, Nat.mod_one, Nat.one_mul] at hshifted
  exact hshifted

theorem Shifted.roundedMantissa {m d : Nat} {em : ExtendedMantissa} (h : Shifted m d em)
    (hd : 0 < d) : em.roundedMantissa = roundDiv .toEven m d := by
  obtain ⟨q, round, sticky⟩ := em
  obtain ⟨hq, hround, hsticky⟩ := h
  have hrest : m % d < d := Nat.mod_lt m hd
  simp only at hq hround hsticky
  subst hq
  unfold roundDiv ExtendedMantissa.roundedMantissa
  dsimp only
  -- by the bit behind the mantissa, and by whether a bit is left behind that one
  cases round with
  | false =>
    cases sticky with
    | false =>
      simp only [Bool.false_eq_true, false_iff] at hround hsticky
      rw [if_pos (by omega)]
      rfl
    | true =>
      simp only [Bool.false_eq_true, false_iff, true_iff] at hround hsticky
      rw [if_pos (by omega)]
      rfl
  | true =>
    cases sticky with
    | false =>
      simp only [Bool.false_eq_true, false_iff, true_iff] at hround hsticky
      rw [if_neg (by omega), if_neg (by omega)]
      simp only [ExtendedMantissa.accuracy, Accuracy.roundToNearestEven, beq_iff_eq]
      split <;> omega
    | true =>
      simp only [true_iff] at hround hsticky
      rw [if_neg (by omega), if_pos (by omega)]
      rfl

/-- A quotient of `m` by `d` that misses the exact one by half a unit at most, and by as much only
where it is even. -/
structure NearQuotient (m d r : Nat) : Prop where
  above : 2 * m < (2 * r + 1) * d ∨ r % 2 = 0 ∧ 2 * m = (2 * r + 1) * d
  below : 2 * r * d < 2 * m + d ∨ r % 2 = 0 ∧ 2 * r * d = 2 * m + d

theorem nearQuotient_roundDiv (m : Nat) {d : Nat} (hd : 0 < d) :
    NearQuotient m d (roundDiv .toEven m d) := by
  have hsplit : m / d * d + m % d = m := Nat.div_add_mod' m d
  have hrest : m % d < d := Nat.mod_lt m hd
  unfold roundDiv
  dsimp only
  generalize m / d = q at *
  generalize m % d = r at *
  have hunit : ∀ n : Nat, 2 * n * d = 2 * (n * d) := fun n => Nat.mul_assoc 2 n d
  have hnext : (q + 1) * d = q * d + d := Nat.succ_mul q d
  -- below the half, above it, and at it with an even or an odd quotient
  split
  · constructor <;> simp only [Nat.add_mul, hunit, Nat.one_mul] <;> omega
  · split
    · constructor <;> simp only [Nat.add_mul (2 * _), hunit, hnext, Nat.one_mul] <;> omega
    · split
      · next heven =>
          rw [beq_iff_eq] at heven
          constructor <;> simp only [Nat.add_mul, hunit, Nat.one_mul] <;> omega
      · next hodd =>
          rw [beq_iff_eq] at hodd
          constructor <;> simp only [Nat.add_mul (2 * _), hunit, hnext, Nat.one_mul] <;> omega

/-! ### The interval around a rounded mantissa -/

/-- In units of a quarter of the last bit that is kept. -/
theorem div_mul_zpow_eq (m d : Nat) (t : Int) :
    (m / d : ℚ) * 2 ^ t = 4 * m / d * 2 ^ (t - 2) := by
  have hfour : (2 : ℚ) ^ t = 4 * 2 ^ (t - 2) := by
    rw [zpow_sub₀ (by norm_num)]
    norm_num
    ring
  rw [hfour]
  ring

theorem quarters_lt_iff {a m d : Nat} (hd : 0 < d) (t : Int) :
    (a : ℚ) * 2 ^ (t - 2) < m / d * 2 ^ t ↔ a * d < 4 * m := by
  have hunit : (0 : ℚ) < 2 ^ (t - 2) := zpow_pos (by norm_num) _
  have hpos : (0 : ℚ) < d := by exact_mod_cast hd
  rw [div_mul_zpow_eq, mul_lt_mul_iff_left₀ hunit, lt_div_iff₀ hpos]
  norm_cast

theorem lt_quarters_iff {a m d : Nat} (hd : 0 < d) (t : Int) :
    (m / d : ℚ) * 2 ^ t < a * 2 ^ (t - 2) ↔ 4 * m < a * d := by
  have hunit : (0 : ℚ) < 2 ^ (t - 2) := zpow_pos (by norm_num) _
  have hpos : (0 : ℚ) < d := by exact_mod_cast hd
  rw [div_mul_zpow_eq, mul_lt_mul_iff_left₀ hunit, div_lt_iff₀ hpos]
  norm_cast

theorem quarters_eq_iff {a m d : Nat} (hd : 0 < d) (t : Int) :
    (a : ℚ) * 2 ^ (t - 2) = m / d * 2 ^ t ↔ a * d = 4 * m := by
  have hunit : (0 : ℚ) < 2 ^ (t - 2) := zpow_pos (by norm_num) _
  have hpos : (0 : ℚ) < d := by exact_mod_cast hd
  rw [div_mul_zpow_eq, mul_left_inj' hunit.ne', eq_div_iff hpos.ne']
  norm_cast

/-- The exponent of the last bit that is kept of a number. -/
def unitExponent (m : Nat) (e : Int) : Int :=
  max (m.log2 + e - 52) (-1074)

theorem targetExponent_eq (m : Nat) (e : Int) :
    Format.binary64.targetExponent (totalExponent m e) = unitExponent m e := by
  simp only [Format.targetExponent, totalExponent, Format.mantissaBits, Format.minExponent,
    unitExponent]
  norm_num
  omega

/-- Of the quotient no more than 53 bits are left, and no fewer where there is more than the least
exponent. -/
theorem quotient_bounds {m d : Nat} {e : Int} (hd : 0 < d) (he : e ≤ unitExponent (m / d) e) :
    m < 2 ^ 53 * (d * 2 ^ (unitExponent (m / d) e - e).toNat) ∧
      (2 ^ 52 * (d * 2 ^ (unitExponent (m / d) e - e).toNat) ≤ m ∨
        unitExponent (m / d) e = -1074) := by
  have hbelow : m / d < 2 ^ ((m / d).log2 + 1) := Nat.lt_log2_self
  rw [Nat.mul_left_comm (2 ^ 53), Nat.mul_left_comm (2 ^ 52), ← Nat.pow_add, ← Nat.pow_add]
  constructor
  · rw [Nat.mul_comm, ← Nat.div_lt_iff_lt_mul hd]
    unfold unitExponent at he ⊢
    exact hbelow.trans_le (Nat.pow_le_pow_right (by norm_num) (by omega))
  · rw [Nat.mul_comm, ← Nat.le_div_iff_mul_le hd]
    obtain hzero | hpos := Nat.eq_zero_or_pos (m / d)
    · -- a quotient without bits has an exponent below the least one
      right
      unfold unitExponent at he ⊢
      rw [hzero, Nat.log2_zero] at he ⊢
      omega
    · have habove : 2 ^ (m / d).log2 ≤ m / d := Nat.log2_self_le hpos.ne'
      unfold unitExponent at he ⊢
      by_cases hleast : max (((m / d).log2 : Int) + e - 52) (-1074) = -1074
      · exact .inr hleast
      · exact .inl ((Nat.pow_le_pow_right (by norm_num) (by omega)).trans habove)

theorem covers_of_quarters {n low high m d : Nat} {t : Int} (hd : 0 < d)
    (hlow : (ofMagnitude n).lower = low * 2 ^ (t - 2))
    (hhigh : (ofMagnitude n).upper = high * 2 ^ (t - 2))
    (hbelow : low * d < 4 * m ∨ n % 2 = 0 ∧ low * d = 4 * m)
    (habove : 4 * m < high * d ∨ n % 2 = 0 ∧ high * d = 4 * m) :
    Covers n (m / d * 2 ^ t) := by
  constructor
  · rw [hlow, quarters_lt_iff hd, quarters_eq_iff hd]
    exact hbelow
  · rw [hhigh, lt_quarters_iff hd, quarters_eq_iff hd]
    exact habove

theorem place_carry {t : Int} (ht : -1074 ≤ t) : place (2 ^ 53) t = place (2 ^ 52) (t + 1) := by
  unfold place
  omega

/-- What is rounded lies where the rounded mantissa stands, a carry included. -/
theorem covers_place {m d r : Nat} {t : Int} (hd : 0 < d) (ht : -1074 ≤ t) (hle : r ≤ 2 ^ 53)
    (hnear : NearQuotient m d r) (hnormal : 2 ^ 52 * d ≤ m ∨ t = -1074)
    (hcanonical : r < 2 ^ 53 → Canonical r t) : Covers (place r t) (m / d * 2 ^ t) := by
  have hparity : place r t % 2 = r % 2 := by
    unfold place
    omega
  obtain ⟨habove, hbelow⟩ := hnear
  rw [Nat.add_mul, Nat.mul_assoc, Nat.one_mul] at habove
  rw [Nat.mul_assoc] at hbelow
  obtain hlt | hcarry := Nat.lt_or_eq_of_le hle
  · have hsize := ofMagnitude_place (hcanonical hlt)
    have hhigh : (ofMagnitude (place r t)).upper = (4 * r + 2 : Nat) * 2 ^ (t - 2) := by
      rw [hsize, Binary.upper]
    by_cases hnarrow : r = 2 ^ 52 ∧ -1074 < t
    · -- the float below is nearer, but the number is not below the power of two
      have hlow : (ofMagnitude (place r t)).lower = (4 * r - 1 : Nat) * 2 ^ (t - 2) := by
        have htrue : (r == 2 ^ 52 && decide (-1074 < t)) = true := by simpa using hnarrow
        rw [hsize, Binary.lower, htrue, if_pos rfl]
      have hpower := hnormal.resolve_right hnarrow.2.ne'
      rw [← hnarrow.1] at hpower
      apply covers_of_quarters hd hlow hhigh
      · rw [hparity, Nat.sub_mul, Nat.mul_assoc, Nat.one_mul]
        omega
      · rw [hparity, Nat.add_mul, Nat.mul_assoc]
        omega
    · have hlow : (ofMagnitude (place r t)).lower = (4 * r - 2 : Nat) * 2 ^ (t - 2) := by
        have hwide : (r == 2 ^ 52 && decide (-1074 < t)) = false := by
          rw [Bool.eq_false_iff]
          simpa using hnarrow
        rw [hsize, Binary.lower, hwide, if_neg Bool.false_ne_true]
      apply covers_of_quarters hd hlow hhigh
      · rw [hparity, Nat.sub_mul, Nat.mul_assoc]
        obtain rfl | hr := Nat.eq_zero_or_pos r
        · omega
        · have hunit := Nat.le_mul_of_pos_left d hr
          omega
      · rw [hparity, Nat.add_mul, Nat.mul_assoc]
        omega
  · -- the carry makes a power of two of the mantissa
    have hsize := ofMagnitude_place (m := 2 ^ 52) (e := t + 1)
      ⟨by norm_num, by omega, .inl (Nat.le_refl _)⟩
    have hgt : -1074 < t + 1 := by omega
    have hexponent : (2 : ℚ) ^ (t + 1 - 2) = 2 * 2 ^ (t - 2) := by
      rw [show t + 1 - 2 = t - 2 + 1 by omega, zpow_add_one₀ (by norm_num), mul_comm]
    have hlow : (ofMagnitude (place r t)).lower = (4 * r - 2 : Nat) * 2 ^ (t - 2) := by
      rw [hcarry, place_carry ht, hsize, Binary.lower]
      simp only [BEq.rfl, decide_eq_true hgt, Bool.and_self, if_true, hexponent]
      rw [← mul_assoc]
      norm_num
    have hhigh : (ofMagnitude (place r t)).upper = (4 * r + 4 : Nat) * 2 ^ (t - 2) := by
      rw [hcarry, place_carry ht, hsize, Binary.upper, hexponent, ← mul_assoc]
      norm_num
    apply covers_of_quarters hd hlow hhigh
    · rw [hparity, Nat.sub_mul, Nat.mul_assoc]
      omega
    · rw [hparity, Nat.add_mul, Nat.mul_assoc]
      omega

/-- A finite result with its sign and its place. -/
inductive Sized (s : Sign) : UnpackedFloat → Nat → Prop
  | zero : Sized s (.zero s) 0
  | finite {m : Nat} {e : Int} (hm : 0 < m) (h : Canonical m e) :
      Sized s (.finite s m e hm) (place m e)

theorem shiftToTargetExponent_eq {m : Nat} {e : Int} (he : e ≤ unitExponent m e)
    (accuracy : Accuracy) :
    shiftToTargetExponent Format.binary64 m e accuracy =
      (ExtendedMantissa.ofMantissaAndAccuracy m accuracy >>> (unitExponent m e - e).toNat,
        unitExponent m e) := by
  simp only [shiftToTargetExponent, shiftToExponent, targetExponent_eq]
  congr 1
  omega

/-- A mantissa that fits stays as it is. -/
theorem shiftToTargetExponent_of_lt {r : Nat} {t : Int} (hr : r < 2 ^ 53) (ht : -1074 ≤ t) :
    shiftToTargetExponent Format.binary64 r t .exact = (⟨r, false, false⟩, t) := by
  have hlog : r.log2 ≤ 52 := by
    obtain rfl | hne := Nat.eq_zero_or_pos r
    · simp
    · have := (Nat.log2_lt hne.ne').2 hr
      omega
  have hle : unitExponent r t ≤ t := by
    unfold unitExponent
    omega
  have hshift : (unitExponent r t - t).toNat = 0 := by omega
  simp only [shiftToTargetExponent, shiftToExponent, targetExponent_eq, hshift]
  simp [HShiftRight.hShiftRight, Nat.repeat, ExtendedMantissa.ofMantissaAndAccuracy]

theorem shiftToTargetExponent_carry {t : Int} (ht : -1074 ≤ t) :
    shiftToTargetExponent Format.binary64 (2 ^ 53) t .exact =
      (⟨2 ^ 52, false, false⟩, t + 1) := by
  have hlog : unitExponent (2 ^ 53) t = t + 1 := by
    unfold unitExponent
    rw [Nat.log2_two_pow]
    omega
  have hshift : (t + 1 - t).toNat = 1 := by omega
  simp only [shiftToTargetExponent, shiftToExponent, targetExponent_eq, hlog, hshift]
  rfl

/-- A rounded mantissa has 53 bits at most, a carry aside, and no fewer above the least exponent. -/
theorem rounded_bounds {m d r : Nat} (hd : 0 < d) (hbits : m < 2 ^ 53 * d)
    (hnear : NearQuotient m d r) : r ≤ 2 ^ 53 ∧ (2 ^ 52 * d ≤ m → 2 ^ 52 ≤ r) := by
  obtain ⟨habove, hbelow⟩ := hnear
  constructor
  · have hmul : 2 * r * d < (2 ^ 54 + 1) * d := by
      rw [Nat.add_mul]
      omega
    have := Nat.lt_of_mul_lt_mul_right hmul
    omega
  · intro hnormal
    have hmul : 2 ^ 53 * d ≤ (2 * r + 1) * d := by omega
    have := Nat.le_of_mul_le_mul_right hmul hd
    omega

theorem div_two_pow_mul_zpow {e t : Int} (h : e ≤ t) (m d : Nat) :
    (m / (d * 2 ^ (t - e).toNat : Nat) : ℚ) * 2 ^ t = m / d * 2 ^ e := by
  have hexponent : (2 : ℚ) ^ t = 2 ^ e * 2 ^ (t - e).toNat := by
    rw [← zpow_natCast, ← zpow_add₀ (by norm_num), Int.toNat_of_nonneg (by omega)]
    congr 1
    omega
  rw [hexponent]
  push_cast
  field_simp

/-- A rounded mantissa is taken as it is, but for a carry, which is shifted out. -/
theorem sized_of_rounded (s : Sign) {r : Nat} {t : Int} (ht : -1074 ≤ t) (hle : r ≤ 2 ^ 53)
    (hcanonical : r < 2 ^ 53 → Canonical r t) :
    let (em, e) := shiftToTargetExponent Format.binary64 r t .exact
    Sized s (if h : em.mantissa = 0 then .zero s
      else .finite s em.mantissa e (Nat.pos_of_ne_zero h)) (place r t) := by
  obtain hlt | rfl := Nat.lt_or_eq_of_le hle
  · rw [shiftToTargetExponent_of_lt hlt ht]
    dsimp only
    split
    · next hzero =>
        subst hzero
        -- nothing is left of a number only where it has the least exponent
        have hleast : t = -1074 := (hcanonical hlt).normal.resolve_left (by norm_num)
        rw [hleast]
        exact .zero
    · exact .finite _ (hcanonical hlt)
  · rw [shiftToTargetExponent_carry ht, place_carry ht]
    exact .finite _ ⟨by norm_num, by omega, .inl (Nat.le_refl _)⟩

/-- Rounding finds the place that takes the quotient in. -/
theorem exists_sized_roundQuotient (s : Sign) {m d : Nat} {e : Int} (hd : 0 < d)
    (he : e ≤ unitExponent (m / d) e) :
    ∃ n, Sized s (roundWithAccuracy Format.binary64 s (m / d) e (accuracyOfFraction (m % d) d)) n ∧
      Covers n (m / d * 2 ^ e) := by
  have hpos : 0 < d * 2 ^ (unitExponent (m / d) e - e).toNat :=
    Nat.mul_pos hd (Nat.two_pow_pos _)
  have ht : -1074 ≤ unitExponent (m / d) e := le_max_right _ _
  obtain ⟨hbits, hnormal⟩ := quotient_bounds hd he
  have hnear := nearQuotient_roundDiv m hpos
  have hround := ((shifted_ofMantissaAndAccuracy m hd).shiftRight hd
    (unitExponent (m / d) e - e).toNat).roundedMantissa hpos
  obtain ⟨hle, hfull⟩ := rounded_bounds hpos hbits hnear
  have hcanonical := fun hlt => Canonical.mk hlt ht (hnormal.imp_left hfull)
  unfold roundWithAccuracy
  rw [shiftToTargetExponent_eq he, ← div_two_pow_mul_zpow he]
  dsimp only
  rw [hround]
  exact ⟨_, sized_of_rounded s ht hle hcanonical, covers_place hpos ht hle hnear hnormal hcanonical⟩

/-- Rounding finds the place that takes the number in. -/
theorem exists_sized_roundWithAccuracy (s : Sign) {m : Nat} {e : Int} (he : e ≤ unitExponent m e) :
    ∃ n, Sized s (roundWithAccuracy Format.binary64 s m e .exact) n ∧ Covers n (m * 2 ^ e) := by
  have hround := exists_sized_roundQuotient s (m := m) (e := e) Nat.one_pos (by rwa [Nat.div_one])
  rw [Nat.div_one, Nat.mod_one, Nat.cast_one, div_one] at hround
  exact hround

theorem log2_mul_two_pow {m : Nat} (hm : 0 < m) (k : Nat) : (m * 2 ^ k).log2 = m.log2 + k := by
  rw [Nat.log2_eq_iff (Nat.mul_pos hm (Nat.two_pow_pos k)).ne', Nat.pow_add, Nat.pow_add,
    Nat.pow_add, Nat.mul_right_comm]
  have hbelow : m < 2 ^ (m.log2 + 1) := Nat.lt_log2_self
  rw [Nat.pow_add] at hbelow
  exact ⟨Nat.mul_le_mul_right _ (Nat.log2_self_le hm.ne'),
    Nat.mul_lt_mul_of_pos_right hbelow (Nat.two_pow_pos k)⟩

/-- A number may be written with a smaller exponent. -/
theorem shiftLeft_mul_zpow (m k : Nat) (e : Int) :
    ((m <<< k : Nat) : ℚ) * 2 ^ (e - k) = m * 2 ^ e := by
  rw [Nat.shiftLeft_eq, zpow_sub₀ (by norm_num), zpow_natCast]
  push_cast
  field_simp

theorem exists_sized_round (s : Sign) {m : Nat} (hm : 0 < m) (e : Int) :
    ∃ n, Sized s (UnpackedFloat.round Format.binary64 s m e) n ∧ Covers n (m * 2 ^ e) := by
  unfold UnpackedFloat.round decreaseExponent
  simp only [targetExponent_eq]
  generalize hk : (e - unitExponent m e).toNat = k
  have hunit : e - k ≤ unitExponent (m <<< k) (e - k) := by
    have hlog := log2_mul_two_pow hm k
    rw [← Nat.shiftLeft_eq] at hlog
    unfold unitExponent at hk ⊢
    rw [hlog]
    omega
  have hround := exists_sized_roundWithAccuracy s hunit
  rwa [shiftLeft_mul_zpow] at hround

/-- A sum of numbers that is written with one exponent is rounded to a float of its sign. -/
theorem exists_sized_normalize (n : Int) (e : Int) :
    ∃ s k, Sized s (UnpackedFloat.normalize Format.binary64 n e .positive) k ∧
      Rounds (n * 2 ^ e) (s.apply (min k infinite : Nat)) := by
  unfold UnpackedFloat.normalize
  split
  · next hneg =>
      rw [Int.compare_eq_lt] at hneg
      obtain ⟨k, hsized, hcovers⟩ := exists_sized_round .negative (m := (-n).toNat) (by omega) e
      refine ⟨.negative, k, hsized, ?_⟩
      have hnat : ((-n).toNat : ℚ) = -(n : ℚ) := by
        have : ((-n).toNat : Int) = -n := Int.toNat_of_nonneg (by omega)
        exact_mod_cast this
      have h := hcovers.nearest.rounds (size_nonneg _ _) .negative
      simpa [hnat, Sign.apply] using h
  · next hzero =>
      rw [Int.compare_eq_eq] at hzero
      subst hzero
      refine ⟨.positive, 0, .zero, ?_⟩
      simpa [Sign.apply] using rounds_zero
  · next hpos =>
      rw [Int.compare_eq_gt] at hpos
      obtain ⟨k, hsized, hcovers⟩ := exists_sized_round .positive (m := n.toNat) (by omega) e
      refine ⟨.positive, k, hsized, ?_⟩
      have hnat : (n.toNat : ℚ) = (n : ℚ) := by
        have : (n.toNat : Int) = n := Int.toNat_of_nonneg (by omega)
        exact_mod_cast this
      have h := hcovers.nearest.rounds (size_nonneg _ _) .positive
      simpa [hnat, Sign.apply] using h

end AskSql.Decimal
