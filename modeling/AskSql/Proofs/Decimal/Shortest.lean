import AskSql.Decimal.Notation
import Mathlib.Algebra.Order.Field.Rat
import Mathlib.Algebra.Order.Group.Unbundled.Basic
import Mathlib.Tactic.FieldSimp
import Mathlib.Tactic.Linarith
import Mathlib.Tactic.Positivity
import Mathlib.Tactic.Ring

/-!
# The decimal that stands for a float

The decimals that read back as a float form an interval around it.  The float of the next larger
size begins where this one ends, and only one of the two takes the common bound in, so a decimal
reads back as one size alone (`magnitude_unique`).  The decimal that `Binary.shortest` selects reads
back (`Binary.readsBack_shortest`); hence it stands for one size.
-/

namespace AskSql.Decimal

/-- The number that a decimal is. -/
def Scaled.value (d : Scaled) : ℚ :=
  d.digits * (10 : ℚ) ^ d.exponent

theorem zpow_mul_pow_toNat {b : ℚ} (hb : b ≠ 0) (i : Int) :
    b ^ i * b ^ (-i).toNat = b ^ i.toNat := by
  rw [← zpow_natCast b (-i).toNat, ← zpow_natCast b i.toNat, ← zpow_add₀ hb]
  congr 1
  omega

/-- Clearing the denominators leaves the comparison as it is. -/
theorem compareScaled_spec (a n : Nat) (i j : Int) :
    (compareScaled a i n j = .gt ↔ (n : ℚ) * 2 ^ j < a * 10 ^ i) ∧
      (compareScaled a i n j = .lt ↔ (a : ℚ) * 10 ^ i < n * 2 ^ j) ∧
        (compareScaled a i n j = .eq ↔ (a : ℚ) * 10 ^ i = n * 2 ^ j) := by
  have hten := zpow_mul_pow_toNat (b := 10) (by norm_num) i
  have htwo := zpow_mul_pow_toNat (b := 2) (by norm_num) j
  have hpos : (0 : ℚ) < 10 ^ (-i).toNat * 2 ^ (-j).toNat := by positivity
  have hleft : ((a * 10 ^ i.toNat * 2 ^ (-j).toNat : Nat) : ℚ) =
      a * 10 ^ i * (10 ^ (-i).toNat * 2 ^ (-j).toNat) := by
    push_cast
    rw [← hten]
    ring
  have hright : ((n * 2 ^ j.toNat * 10 ^ (-i).toNat : Nat) : ℚ) =
      n * 2 ^ j * (10 ^ (-i).toNat * 2 ^ (-j).toNat) := by
    push_cast
    rw [← htwo]
    ring
  have hcompare : compareScaled a i n j =
      compare (a * 10 ^ i.toNat * 2 ^ (-j).toNat) (n * 2 ^ j.toNat * 10 ^ (-i).toNat) := rfl
  rw [hcompare, Nat.compare_eq_gt, Nat.compare_eq_lt, Nat.compare_eq_eq, ← Nat.cast_lt (α := ℚ),
    ← Nat.cast_lt (α := ℚ), ← Nat.cast_inj (R := ℚ), hleft, hright]
  exact ⟨mul_lt_mul_iff_left₀ hpos, mul_lt_mul_iff_left₀ hpos, mul_left_inj' hpos.ne'⟩

namespace Binary

/-- Where the decimals begin that read back as a float. -/
def lower (x : Binary) : ℚ :=
  (if x.narrowBelow then 4 * x.mantissa - 1 else 4 * x.mantissa - 2 : Nat) * 2 ^ (x.exponent - 2)

/-- Where they end. -/
def upper (x : Binary) : ℚ :=
  (4 * x.mantissa + 2 : Nat) * 2 ^ (x.exponent - 2)

/-- A bound belongs to the decimals that read back where the last bit of the float is zero. -/
theorem readsBack_iff (x : Binary) (d : Scaled) :
    x.readsBack d = true ↔
      (x.lower < d.value ∨ x.mantissa % 2 = 0 ∧ d.value = x.lower) ∧
        (d.value < x.upper ∨ x.mantissa % 2 = 0 ∧ d.value = x.upper) := by
  obtain ⟨hlow, -, hlowEq⟩ := compareScaled_spec d.digits
    (if x.narrowBelow then 4 * x.mantissa - 1 else 4 * x.mantissa - 2) d.exponent (x.exponent - 2)
  obtain ⟨-, hhigh, hhighEq⟩ := compareScaled_spec d.digits (4 * x.mantissa + 2) d.exponent
    (x.exponent - 2)
  simp only [readsBack, Bool.and_eq_true, Bool.or_eq_true, beq_iff_eq, hlow, hlowEq, hhigh, hhighEq]
  rfl

theorem four_mul_zpow (x : Binary) :
    (4 * x.mantissa : ℚ) * 2 ^ (x.exponent - 2) = x.mantissa * 2 ^ x.exponent := by
  rw [zpow_sub₀ (by norm_num)]
  ring

/-- The float lies inside of its interval. -/
theorem lower_lt_lt_upper {x : Binary} (h : x.mantissa ≠ 0) :
    x.lower < x.mantissa * 2 ^ x.exponent ∧ x.mantissa * 2 ^ x.exponent < x.upper := by
  have hpos : (0 : ℚ) < 2 ^ (x.exponent - 2) := zpow_pos (by norm_num) _
  rw [← x.four_mul_zpow, lower, upper, mul_lt_mul_iff_left₀ hpos, mul_lt_mul_iff_left₀ hpos]
  norm_cast
  constructor
  · split <;> omega
  · omega

theorem value_exact (x : Binary) : x.exact.value = x.mantissa * 2 ^ x.exponent := by
  unfold exact Scaled.value
  split
  · next h =>
      change ((x.mantissa * 2 ^ x.exponent.toNat : Nat) : ℚ) * 10 ^ (0 : Int) = _
      rw [zpow_zero, mul_one, Nat.cast_mul, Nat.cast_pow, Nat.cast_ofNat, ← zpow_natCast,
        Int.toNat_of_nonneg h]
  · next h =>
      change ((x.mantissa * 5 ^ (-x.exponent).toNat : Nat) : ℚ) * 10 ^ x.exponent = _
      -- the negative power of ten is one of two and one of five
      have hten : (10 : ℚ) ^ x.exponent = 2 ^ x.exponent * 5 ^ x.exponent := by
        rw [← mul_zpow]
        norm_num
      have hfive := zpow_mul_pow_toNat (b := 5) (by norm_num) x.exponent
      have hzero : x.exponent.toNat = 0 := by omega
      rw [hzero, pow_zero] at hfive
      push_cast
      rw [hten]
      calc (x.mantissa : ℚ) * 5 ^ (-x.exponent).toNat * (2 ^ x.exponent * 5 ^ x.exponent)
          = x.mantissa * 2 ^ x.exponent * (5 ^ x.exponent * 5 ^ (-x.exponent).toNat) := by ring
        _ = x.mantissa * 2 ^ x.exponent := by rw [hfive, mul_one]

theorem readsBack_exact {x : Binary} (h : x.mantissa ≠ 0) : x.readsBack x.exact = true := by
  obtain ⟨hlow, hhigh⟩ := lower_lt_lt_upper h
  rw [readsBack_iff, value_exact]
  exact ⟨.inl hlow, .inl hhigh⟩

theorem roundDiv_eq_or (tie : Tie) (num den : Nat) :
    roundDiv tie num den = num / den ∨ roundDiv tie num den = num / den + 1 := by
  unfold roundDiv
  dsimp only
  split
  · exact .inl rfl
  · split
    · exact .inr rfl
    · cases tie with
      | upward => exact .inr rfl
      | toEven =>
          dsimp only
          split
          · exact .inl rfl
          · exact .inr rfl

theorem readsBack_of_onGrid? {tie : Tie} {x : Binary} {grid : Int} {d : Scaled}
    (h : x.onGrid? tie grid = some d) : x.readsBack d = true := by
  unfold onGrid? at h
  dsimp only at h
  split at h
  · next hbelow habove =>
      obtain rfl := Option.some.inj h
      obtain hround | hround := roundDiv_eq_or tie (x.inUnits grid).1 (x.inUnits grid).2
      · rw [hround]
        exact (Bool.and_eq_true_iff.1 hbelow).2
      · rwa [hround]
  · next hbelow _ =>
      obtain rfl := Option.some.inj h
      exact (Bool.and_eq_true_iff.1 hbelow).2
  · next habove =>
      obtain rfl := Option.some.inj h
      exact habove
  · cases h

/-- The decimal with the fewest digits reads back. -/
theorem readsBack_shortest (tie : Tie) {x : Binary} (h : x.mantissa ≠ 0) :
    x.readsBack (x.shortest tie) = true := by
  unfold shortest
  dsimp only
  cases hfound : (List.range 17).findSome? fun (i : Nat) =>
      x.onGrid? tie (x.scale - 1 - (i : Int)) with
  | some d =>
      obtain ⟨i, -, hd⟩ := List.exists_of_findSome?_eq_some hfound
      exact readsBack_of_onGrid? hd
  | none => exact readsBack_exact h

end Binary

/-- Zeros at the end may be moved into the exponent. -/
theorem Scaled.value_strip (n : Nat) (d : Scaled) : (d.strip n).value = d.value := by
  induction n generalizing d with
  | zero => rfl
  | succ n ih =>
      rw [strip]
      split
      · next h =>
          simp only [Bool.and_eq_true, bne_iff_ne, beq_iff_eq] at h
          have hdigits : d.digits = d.digits / 10 * 10 := by omega
          rw [ih, value, value, zpow_add₀ (by norm_num), zpow_one]
          conv_rhs => rw [hdigits]
          push_cast
          ring
      · rfl

/-! ### Neighbours -/

/-- The size with an exponent field and a fraction field. -/
def ofFields (e f : Nat) : Binary :=
  if e == 0 then ⟨f, -1074, false⟩ else ⟨2 ^ 52 + f, (e : Int) - 1075, f == 0 && e > 1⟩

/-- The sizes of floats from the smallest to the largest. -/
def ofMagnitude (n : Nat) : Binary :=
  ofFields (n / 2 ^ 52) (n % 2 ^ 52)

theorem mantissa_ofMagnitude_mod_two (n : Nat) : (ofMagnitude n).mantissa % 2 = n % 2 := by
  unfold ofMagnitude ofFields
  split
  · change n % 2 ^ 52 % 2 = n % 2
    omega
  · change (2 ^ 52 + n % 2 ^ 52) % 2 = n % 2
    omega

/-- Within one exponent. -/
theorem upper_ofFields (e f : Nat) : (ofFields e f).upper = (ofFields e (f + 1)).lower := by
  unfold ofFields
  split
  · simp only [Binary.upper, Binary.lower, Bool.false_eq_true, if_false]
    congr 2
  · have hnarrow : ((f + 1 == 0) && decide (e > 1)) = false := by simp
    simp only [Binary.upper, Binary.lower, hnarrow, Bool.false_eq_true, if_false]
    congr 2

/-- The first float of the next exponent. -/
theorem upper_ofFields_last (e : Nat) :
    (ofFields e (2 ^ 52 - 1)).upper = (ofFields (e + 1) 0).lower := by
  rcases Nat.eq_zero_or_pos e with rfl | hpos
  · norm_num [ofFields, Binary.upper, Binary.lower]
  · have he : (e == 0) = false := by simpa using hpos.ne'
    have hgt : e + 1 > 1 := by omega
    have hexponent : ((e + 1 : Nat) : Int) - 1075 - 2 = (e : Int) - 1075 - 2 + 1 := by omega
    simp only [ofFields, he, Bool.false_eq_true, if_false, Nat.succ_ne_zero, beq_iff_eq,
      Binary.upper, Binary.lower, BEq.rfl, decide_eq_true hgt, Bool.and_self, if_true, hexponent]
    rw [zpow_add₀ (by norm_num), zpow_one]
    norm_num
    ring

/-- Each interval begins where the one before it ends. -/
theorem upper_ofMagnitude (n : Nat) : (ofMagnitude n).upper = (ofMagnitude (n + 1)).lower := by
  unfold ofMagnitude
  by_cases hlast : n % 2 ^ 52 = 2 ^ 52 - 1
  · have hdiv : (n + 1) / 2 ^ 52 = n / 2 ^ 52 + 1 := by omega
    have hmod : (n + 1) % 2 ^ 52 = 0 := by omega
    rw [hlast, hdiv, hmod, upper_ofFields_last]
  · have hdiv : (n + 1) / 2 ^ 52 = n / 2 ^ 52 := by omega
    have hmod : (n + 1) % 2 ^ 52 = n % 2 ^ 52 + 1 := by omega
    rw [hdiv, hmod, upper_ofFields]

theorem Binary.lower_lt_upper (x : Binary) : x.lower < x.upper := by
  have hpos : (0 : ℚ) < 2 ^ (x.exponent - 2) := zpow_pos (by norm_num) _
  rw [lower, upper, mul_lt_mul_iff_left₀ hpos]
  norm_cast
  split <;> omega

theorem upper_le_lower {n k : Nat} (h : n < k) : (ofMagnitude n).upper ≤ (ofMagnitude k).lower := by
  induction k, h using Nat.le_induction with
  | base => exact (upper_ofMagnitude n).le
  | succ k _ ih =>
      have hnext := (ofMagnitude k).lower_lt_upper
      rw [upper_ofMagnitude] at hnext
      exact ih.trans hnext.le

/-- What lies above the lower bound of a size lies above the upper bounds of all smaller ones; where
two sizes have a bound in common, it belongs to one of them. -/
theorem not_lt_of_bounds {n k : Nat} {v w : ℚ}
    (hn : v < (ofMagnitude n).upper ∨ n % 2 = 0 ∧ (ofMagnitude n).upper = v)
    (hk : (ofMagnitude k).lower < w ∨ k % 2 = 0 ∧ (ofMagnitude k).lower = w) (h : w ≤ v) :
    ¬ n < k := by
  intro hlt
  have hbelow : v ≤ (ofMagnitude n).upper := hn.elim le_of_lt fun hbound => hbound.2.ge
  have habove : (ofMagnitude k).lower ≤ w := hk.elim le_of_lt fun hbound => hbound.2.le
  obtain rfl | hgap := Nat.eq_or_lt_of_le hlt
  · rw [upper_ofMagnitude] at hn hbelow
    have hleft : ¬ v < (ofMagnitude (n + 1)).lower := by linarith
    have hright : ¬ (ofMagnitude (n + 1)).lower < w := by linarith
    have heven := (hn.resolve_left hleft).1
    have hodd := (hk.resolve_left hright).1
    omega
  · have hbetween := (ofMagnitude (n + 1)).lower_lt_upper
    have hle := upper_le_lower hgap
    rw [upper_ofMagnitude] at hbelow
    linarith

theorem not_lt_of_readsBack {n k : Nat} {d d' : Scaled} (hn : (ofMagnitude n).readsBack d = true)
    (hk : (ofMagnitude k).readsBack d' = true) (hvalue : d.value = d'.value) : ¬ n < k := by
  rw [Binary.readsBack_iff, mantissa_ofMagnitude_mod_two] at hn hk
  exact not_lt_of_bounds (hn.2.imp_right (And.imp_right Eq.symm))
    (hk.1.imp_right (And.imp_right Eq.symm)) hvalue.ge

/-- A decimal reads back as one size alone. -/
theorem magnitude_unique {n k : Nat} {d d' : Scaled} (hn : (ofMagnitude n).readsBack d = true)
    (hk : (ofMagnitude k).readsBack d' = true) (hvalue : d.value = d'.value) : n = k := by
  have hnk := not_lt_of_readsBack hn hk hvalue
  have hkn := not_lt_of_readsBack hk hn hvalue.symm
  omega

/-! ### Floats -/

theorem ofBits_eq (bits : UInt64) : Binary.ofBits bits = ofMagnitude (bits.toNat % 2 ^ 63) := by
  have hexponent : ((bits >>> 52) &&& 0x7FF).toNat = bits.toNat % 2 ^ 63 / 2 ^ 52 := by
    have hand := Nat.and_two_pow_sub_one_eq_mod (bits.toNat >>> 52) 11
    rw [Nat.shiftRight_eq_div_pow] at hand
    rw [UInt64.toNat_and, UInt64.toNat_shiftRight]
    change bits.toNat >>> 52 &&& 2 ^ 11 - 1 = _
    rw [Nat.shiftRight_eq_div_pow, hand]
    omega
  have hfraction : (bits &&& 0xFFFFFFFFFFFFF).toNat = bits.toNat % 2 ^ 63 % 2 ^ 52 := by
    rw [UInt64.toNat_and]
    change bits.toNat &&& 2 ^ 52 - 1 = _
    rw [Nat.and_two_pow_sub_one_eq_mod]
    omega
  rw [Binary.ofBits, hexponent, hfraction]
  rfl

theorem isNegative_iff (x : Float) : isNegative x = true ↔ x.toBits.toNat / 2 ^ 63 = 1 := by
  rw [isNegative, beq_iff_eq, ← UInt64.toNat_inj, UInt64.toNat_shiftRight]
  change x.toBits.toNat >>> 63 = 1 ↔ _
  rw [Nat.shiftRight_eq_div_pow]

/-- A float is its sign and its size. -/
theorem float_ext {x y : Float} (hsign : isNegative x = isNegative y)
    (hsize : x.toBits.toNat % 2 ^ 63 = y.toBits.toNat % 2 ^ 63) : x = y := by
  have hsigns : x.toBits.toNat / 2 ^ 63 = 1 ↔ y.toBits.toNat / 2 ^ 63 = 1 := by
    rw [← isNegative_iff, ← isNegative_iff, hsign]
  have hx := x.toBits.toNat_lt
  have hy := y.toBits.toNat_lt
  have hbits : x.toBits = y.toBits := by
    apply UInt64.toNat_inj.1
    omega
  obtain ⟨⟨xbits, hxvalid⟩⟩ := x
  obtain ⟨⟨ybits, hyvalid⟩⟩ := y
  obtain rfl : xbits = ybits := hbits
  rfl

theorem mantissa_ofMagnitude_eq_zero {n : Nat} (h : (ofMagnitude n).mantissa = 0) : n = 0 := by
  unfold ofMagnitude ofFields at h
  split at h
  · next he =>
      rw [beq_iff_eq] at he
      change n % 2 ^ 52 = 0 at h
      omega
  · change 2 ^ 52 + n % 2 ^ 52 = 0 at h
    omega

/-- The shortest decimal of a float other than zero reads back, and is not zero. -/
theorem shortestOf_spec (tie : Tie) {x : Float} (h : (Binary.ofBits x.toBits).mantissa ≠ 0) :
    ∃ d, (Binary.ofBits x.toBits).readsBack d = true ∧ (shortestOf tie x).value = d.value ∧
      0 < d.value := by
  have hread := Binary.readsBack_shortest tie h
  refine ⟨_, hread, ?_, ?_⟩
  · rw [shortestOf]
    simp only [beq_iff_eq, h, if_false, Scaled.value_strip]
  · have hpos : (0 : ℚ) < 2 ^ ((Binary.ofBits x.toBits).exponent - 2) := zpow_pos (by norm_num) _
    have hlower : 0 < (Binary.ofBits x.toBits).lower := by
      apply mul_pos _ hpos
      norm_cast
      split <;> omega
    obtain ⟨hlow, -⟩ := (Binary.readsBack_iff _ _).1 hread
    exact hlow.elim hlower.trans fun heq => heq.2 ▸ hlower

/-- Two floats of the same sign and the same shortest decimal are the same. -/
theorem eq_of_shortestOf {tie : Tie} {x y : Float} (hsign : isNegative x = isNegative y)
    (hvalue : (shortestOf tie x).value = (shortestOf tie y).value) : x = y := by
  have hzero : ∀ z : Float, (Binary.ofBits z.toBits).mantissa = 0 →
      (shortestOf tie z).value = 0 ∧ z.toBits.toNat % 2 ^ 63 = 0 := by
    intro z hz
    refine ⟨?_, ?_⟩
    · simp [shortestOf, hz, Scaled.value]
    · rw [ofBits_eq] at hz
      exact mantissa_ofMagnitude_eq_zero hz
  apply float_ext hsign
  -- a decimal above zero is not that of zero
  by_cases hx : (Binary.ofBits x.toBits).mantissa = 0
  · by_cases hy : (Binary.ofBits y.toBits).mantissa = 0
    · rw [(hzero x hx).2, (hzero y hy).2]
    · obtain ⟨d, -, hd, hpos⟩ := shortestOf_spec tie hy
      rw [(hzero x hx).1, hd] at hvalue
      exact absurd hvalue hpos.ne
  · obtain ⟨d, hread, hd, hpos⟩ := shortestOf_spec tie hx
    by_cases hy : (Binary.ofBits y.toBits).mantissa = 0
    · rw [(hzero y hy).1, hd] at hvalue
      exact absurd hvalue hpos.ne'
    · obtain ⟨d', hread', hd', -⟩ := shortestOf_spec tie hy
      rw [hd, hd'] at hvalue
      rw [ofBits_eq] at hread hread'
      exact magnitude_unique hread hread' hvalue

end AskSql.Decimal
