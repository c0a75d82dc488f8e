import AskSql.Proofs.Decimal.Shortest

/-!
# Rounding keeps the order

Every finite float has a place among the sizes of floats (`place`), and the place behind them all is
that of infinity.  A number is rounded to the place whose interval takes it in (`Nearest`), with its
sign (`Rounds`).  The intervals stand in a row and meet at bounds that belong to one of them alone,
so of two numbers the smaller one is never rounded to the larger place (`Rounds.mono`).
-/

namespace AskSql.Decimal

open Float.Model.UnpackedFloat (Sign)

/-- The mantissa and the exponent of a finite float, infinitely large ones included. -/
structure Canonical (m : Nat) (e : Int) : Prop where
  mantissa_lt : m < 2 ^ 53
  exponent_ge : -1074 ≤ e
  normal : 2 ^ 52 ≤ m ∨ e = -1074

/-- The place among the sizes of floats. -/
def place (m : Nat) (e : Int) : Nat :=
  (e + 1074).toNat * 2 ^ 52 + m

theorem ofMagnitude_place {m : Nat} {e : Int} (h : Canonical m e) :
    ofMagnitude (place m e) = ⟨m, e, m == 2 ^ 52 && decide (-1074 < e)⟩ := by
  obtain ⟨hm, he, hnormal⟩ := h
  -- a mantissa of fewer bits has the least exponent, and is its own place
  by_cases hsub : m < 2 ^ 52
  · obtain rfl : e = -1074 := hnormal.resolve_left (by omega)
    have hdiv : place m (-1074) / 2 ^ 52 = 0 := by
      unfold place
      omega
    have hmod : place m (-1074) % 2 ^ 52 = m := by
      unfold place
      omega
    have hne : (m == 2 ^ 52) = false := beq_false_of_ne (by omega)
    rw [ofMagnitude, hdiv, hmod, ofFields, if_pos BEq.rfl, hne, Bool.false_and]
  · have hdiv : place m e / 2 ^ 52 = (e + 1075).toNat := by
      unfold place
      omega
    have hmod : place m e % 2 ^ 52 = m - 2 ^ 52 := by
      unfold place
      omega
    have hzero : ((e + 1075).toNat == 0) = false := beq_false_of_ne (by omega)
    have hexponent : ((e + 1075).toNat : Int) - 1075 = e := by omega
    have hmantissa : 2 ^ 52 + (m - 2 ^ 52) = m := by omega
    have hnarrow : (m - 2 ^ 52 == 0 && decide ((e + 1075).toNat > 1)) =
        (m == 2 ^ 52 && decide (-1074 < e)) := by
      rw [Bool.eq_iff_iff]
      simp only [Bool.and_eq_true, beq_iff_eq, decide_eq_true_eq]
      omega
    rw [ofMagnitude, hdiv, hmod, ofFields, hzero, if_neg Bool.false_ne_true, hexponent, hmantissa,
      hnarrow]

theorem size_nonneg (m : Nat) (e : Int) : (0 : ℚ) ≤ m * 2 ^ e :=
  mul_nonneg (Nat.cast_nonneg m) (zpow_pos (by norm_num) e).le

/-- The size of a place takes a number in. -/
structure Covers (n : Nat) (v : ℚ) : Prop where
  lower : (ofMagnitude n).lower < v ∨ n % 2 = 0 ∧ (ofMagnitude n).lower = v
  upper : v < (ofMagnitude n).upper ∨ n % 2 = 0 ∧ (ofMagnitude n).upper = v

/-- The place of infinity, behind all finite sizes. -/
def infinite : Nat :=
  2047 * 2 ^ 52

/-- The place of the size that a number is rounded to; what would lie behind the finite sizes is
infinite. -/
structure Nearest (v : ℚ) (n : Nat) : Prop where
  le_infinite : n ≤ infinite
  lower : (ofMagnitude n).lower < v ∨ n % 2 = 0 ∧ (ofMagnitude n).lower = v
  upper : n < infinite → v < (ofMagnitude n).upper ∨ n % 2 = 0 ∧ (ofMagnitude n).upper = v

theorem Covers.nearest {n : Nat} {v : ℚ} (h : Covers n v) : Nearest v (min n infinite) := by
  refine ⟨Nat.min_le_right _ _, ?_, ?_⟩
  · obtain hlt | hle := Nat.lt_or_ge infinite n
    · rw [Nat.min_eq_right hlt.le]
      left
      calc (ofMagnitude infinite).lower < (ofMagnitude infinite).upper := Binary.lower_lt_upper _
        _ ≤ (ofMagnitude n).lower := upper_le_lower hlt
        _ ≤ v := h.lower.elim le_of_lt fun hbound => hbound.2.le
    · rw [Nat.min_eq_left hle]
      exact h.lower
  · intro hlt
    have hmin : min n infinite = n := by omega
    rw [hmin]
    exact h.upper

/-- Rounding keeps the order of numbers. -/
theorem Nearest.mono {v w : ℚ} {n k : Nat} (hv : Nearest v n) (hw : Nearest w k) (h : v ≤ w) :
    n ≤ k := by
  by_contra hgt
  have hlt : k < n := by omega
  exact not_lt_of_bounds (hw.upper (hlt.trans_le hv.le_infinite)) hv.lower h hlt

theorem covers_zero : Covers 0 0 := by
  have hzero : ofMagnitude 0 = ⟨0, -1074, false⟩ := rfl
  constructor
  · right
    simp [hzero, Binary.lower]
  · left
    rw [hzero, Binary.upper]
    exact mul_pos (by norm_num) (zpow_pos (by norm_num) _)

/-- The place with a sign that a number is rounded to. -/
inductive Rounds : ℚ → Int → Prop
  | nonneg {v : ℚ} {n : Nat} (hv : 0 ≤ v) (h : Nearest v n) : Rounds v n
  | nonpos {v : ℚ} {n : Nat} (hv : 0 ≤ v) (h : Nearest v n) : Rounds (-v) (-n)

theorem Rounds.mono {v w : ℚ} {i j : Int} (hv : Rounds v i) (hw : Rounds w j) (h : v ≤ w) :
    i ≤ j := by
  cases hv with
  | nonneg hv hi =>
      cases hw with
      | nonneg _ hj => exact_mod_cast hi.mono hj h
      | nonpos hw hj =>
          -- both are zero
          have hi' := hi.mono covers_zero.nearest (by linarith)
          have hj' := hj.mono covers_zero.nearest (by linarith)
          omega
  | nonpos hv hi =>
      cases hw with
      | nonneg _ _ => omega
      | nonpos _ hj =>
          have := hj.mono hi (by linarith)
          omega

theorem rounds_zero : Rounds 0 0 :=
  .nonneg le_rfl covers_zero.nearest

theorem Nearest.rounds {v : ℚ} {n : Nat} (h : Nearest v n) (hv : 0 ≤ v) (s : Sign) :
    Rounds ((s.apply 1 : Int) * v) (s.apply n) := by
  cases s with
  | positive =>
      simp only [Sign.apply, Int.cast_one, one_mul]
      exact .nonneg hv h
  | negative =>
      simp only [Sign.apply, Int.cast_neg, Int.cast_one, neg_one_mul]
      exact .nonpos hv h

end AskSql.Decimal
