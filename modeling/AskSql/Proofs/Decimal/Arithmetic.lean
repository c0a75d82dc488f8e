import AskSql.Proofs.Decimal.Order
import Mathlib.Order.WithBot

/-!
# Sums of floats keep the order

The result of an operation on finite floats is the exact result, rounded (`rounds_add`,
`rounds_sub`, `rounds_mul`), and rounding keeps the order.  Beyond the finite floats a sum is
infinite, or no number where opposite infinite floats are added (`sumPlace`).  So adding the
same to two floats keeps their order if the larger sum is a number and the smaller one cannot fail
to be one: `Under` is what is asked of the two, and what their sums have again.

With an end on either side for the infinite ones, floats are in the order of the numbers that they
stand for (`extended_le_iff`).
-/

namespace AskSql.Decimal

open Float.Model Float.Model.UnpackedFloat

/-! ### Sums and products -/

/-- The number that a float stands for; infinity and what is no number stand for none. -/
def valueOf : UnpackedFloat → ℚ
  | .finite s m e _ => (s.apply 1 : Int) * (m * 2 ^ e)
  | _ => 0

theorem apply_zero (s : Sign) : s.apply 0 = 0 := by
  cases s <;> rfl

theorem Canonical.covers {m : Nat} {e : Int} (h : Canonical m e) :
    Covers (place m e) (m * 2 ^ e) := by
  have hnear : NearQuotient m 1 m := by
    constructor <;> omega
  have hnormal : 2 ^ 52 * 1 ≤ m ∨ e = -1074 := by
    rw [mul_one]
    exact h.normal
  have hcovers := covers_place Nat.one_pos h.exponent_ge h.mantissa_lt.le hnear hnormal fun _ => h
  rwa [Nat.cast_one, div_one] at hcovers

/-- The place of a float is where its own number is rounded to. -/
theorem Sized.rounds {s : Sign} {u : UnpackedFloat} {n : Nat} (h : Sized s u n) :
    Rounds (valueOf u) (s.apply (min n infinite : Nat)) := by
  cases h with
  | zero =>
      rw [Nat.zero_min, Nat.cast_zero, apply_zero]
      exact rounds_zero
  | finite hm hc => exact hc.covers.nearest.rounds (size_nonneg _ _) s

theorem cast_apply (s : Sign) (m : Nat) : ((s.apply m : Int) : ℚ) = (s.apply 1 : Int) * m := by
  cases s <;> simp [Sign.apply]

/-- Sums of floats are rounded. -/
theorem Sized.add {s t : Sign} {u v : UnpackedFloat} {n k : Nat} (hu : Sized s u n)
    (hv : Sized t v k) :
    ∃ r j, Sized r (UnpackedFloat.add Format.binary64 u v) j ∧
      Rounds (valueOf u + valueOf v) (r.apply (min j infinite : Nat)) := by
  cases hu with
  | zero =>
      cases hv with
      | zero =>
          have hzero : ∀ r, Rounds (valueOf (.zero s) + valueOf (.zero t))
              (Sign.apply r (min 0 infinite : Nat)) := by
            intro r
            rw [Nat.zero_min, Nat.cast_zero, apply_zero]
            simpa [valueOf] using rounds_zero
          change ∃ r j, Sized r (if s == t then .zero s else .zero .positive) j ∧ _
          split
          · exact ⟨s, 0, .zero, hzero s⟩
          · exact ⟨.positive, 0, .zero, hzero .positive⟩
      | @finite m e hm hc =>
          have hv := Sized.finite (s := t) hm hc
          refine ⟨t, _, hv, ?_⟩
          simpa [valueOf] using hv.rounds
  | @finite m e hm hc =>
      cases hv with
      | zero =>
          have hu := Sized.finite (s := s) hm hc
          refine ⟨s, _, hu, ?_⟩
          simpa [valueOf] using hu.rounds
      | @finite m' e' hm' hc' =>
          -- with the smaller of both exponents the sum is one of whole numbers
          obtain ⟨r, j, hsized, hrounds⟩ := exists_sized_normalize
            (s.apply (m <<< (e - min e e').toNat : Nat) +
              t.apply (m' <<< (e' - min e e').toNat : Nat)) (min e e')
          refine ⟨r, j, hsized, ?_⟩
          have hleft := shiftLeft_mul_zpow m (e - min e e').toNat e
          have hright := shiftLeft_mul_zpow m' (e' - min e e').toNat e'
          have hexponent : e - ((e - min e e').toNat : Int) = min e e' := by omega
          have hexponent' : e' - ((e' - min e e').toNat : Int) = min e e' := by omega
          rw [hexponent] at hleft
          rw [hexponent'] at hright
          rw [Int.cast_add, cast_apply, cast_apply, add_mul, mul_assoc, mul_assoc, hleft, hright]
            at hrounds
          exact hrounds

theorem cast_apply_mul (s t : Sign) :
    (((s * t).apply 1 : Int) : ℚ) = (s.apply 1 : Int) * (t.apply 1 : Int) := by
  have hint : (s * t).apply 1 = s.apply 1 * t.apply 1 := by
    cases s <;> cases t <;> rfl
  rw [hint, Int.cast_mul]

/-- The mantissas of a product have bits enough. -/
theorem add_le_unitExponent {m m' : Nat} {e e' : Int} (hm : 0 < m) (hm' : 0 < m')
    (h : Canonical m e) (h' : Canonical m' e') : e + e' ≤ unitExponent (m * m') (e + e') := by
  have hpos : m * m' ≠ 0 := (Nat.mul_pos hm hm').ne'
  unfold unitExponent
  obtain hnormal | hleast := h.normal
  · have hlog : 52 ≤ (m * m').log2 :=
      (Nat.le_log2 hpos).2 (hnormal.trans (Nat.le_mul_of_pos_right m hm'))
    omega
  · obtain hnormal' | hleast' := h'.normal
    · have hlog : 52 ≤ (m * m').log2 :=
        (Nat.le_log2 hpos).2 (hnormal'.trans (Nat.le_mul_of_pos_left m' hm))
      omega
    · omega

/-- Products of floats are rounded. -/
theorem Sized.mul {s t : Sign} {u v : UnpackedFloat} {n k : Nat} (hu : Sized s u n)
    (hv : Sized t v k) :
    ∃ j, Sized (s * t) (UnpackedFloat.mul Format.binary64 u v) j ∧
      Rounds (valueOf u * valueOf v) ((s * t).apply (min j infinite : Nat)) := by
  have hzero : Rounds 0 ((s * t).apply (min 0 infinite : Nat)) := by
    rw [Nat.zero_min, Nat.cast_zero, apply_zero]
    exact rounds_zero
  cases hu with
  | zero =>
      refine ⟨0, ?_, ?_⟩
      · cases hv <;> exact .zero
      · simpa only [valueOf, zero_mul] using hzero
  | @finite m e hm hc =>
      cases hv with
      | zero =>
          refine ⟨0, .zero, ?_⟩
          simpa only [valueOf, mul_zero] using hzero
      | @finite m' e' hm' hc' =>
          obtain ⟨j, hsized, hcovers⟩ := exists_sized_roundWithAccuracy (s * t)
            (add_le_unitExponent hm hm' hc hc')
          refine ⟨j, hsized, ?_⟩
          have hrounds := hcovers.nearest.rounds (size_nonneg _ _) (s * t)
          have hvalue : ((s * t).apply 1 : Int) * (((m * m' : Nat) : ℚ) * 2 ^ (e + e')) =
              valueOf (.finite s m e hm) * valueOf (.finite t m' e' hm') := by
            rw [cast_apply_mul, zpow_add₀ (by norm_num)]
            unfold valueOf
            push_cast
            ring
          rwa [hvalue] at hrounds

theorem apply_neg (s : Sign) (n : Nat) : (-s).apply n = -s.apply n := by
  cases s with
  | positive => rfl
  | negative => exact (Int.neg_neg _).symm

theorem Sized.neg {s : Sign} {u : UnpackedFloat} {n : Nat} (h : Sized s u n) :
    Sized (-s) u.neg n ∧ valueOf u.neg = -valueOf u := by
  cases h with
  | zero => exact ⟨.zero, neg_zero.symm⟩
  | finite hm hc =>
      refine ⟨.finite hm hc, ?_⟩
      simp only [UnpackedFloat.neg, valueOf]
      rw [← Nat.cast_one, apply_neg, Int.cast_neg, neg_mul]

/-- Subtracting is adding what has the other sign. -/
theorem unpacked_sub (u v : UnpackedFloat) :
    UnpackedFloat.sub Format.binary64 u v = UnpackedFloat.add Format.binary64 u v.neg := by
  cases u <;> cases v <;> simp only [UnpackedFloat.sub, UnpackedFloat.add, UnpackedFloat.neg]
  rw [apply_neg, Int.sub_eq_add_neg]

/-- The number that a float stands for. -/
def value (x : Float) : ℚ :=
  valueOf x.toModel.unpack

theorem infinite_lt_iff (x : Float) : infinite < magnitude x ↔ x.isNaN = true := by
  have hnan : x.isNaN = x.toModel.unpack.isNaN := rfl
  obtain ⟨hu, hn⟩ | ⟨hu, hn⟩ | ⟨hu, hn⟩ := unpack_cases x
  · rw [hnan, hu]
    exact iff_of_true hn rfl
  · rw [hnan, hu, hn]
    exact iff_of_false (lt_irrefl _) Bool.false_ne_true
  · rw [hnan, hu.isNaN_eq]
    exact iff_of_false hn.not_gt Bool.false_ne_true

theorem sized_of_isFinite {x : Float} (h : x.isFinite = true) :
    Sized (signOf x) x.toModel.unpack (magnitude x) ∧ magnitude x < infinite := by
  have hfinite : x.isFinite = x.toModel.unpack.isFinite := rfl
  rw [hfinite] at h
  obtain ⟨hu, -⟩ | ⟨hu, -⟩ | hu := unpack_cases x
  · rw [hu] at h
    cases h
  · rw [hu] at h
    cases h
  · exact hu

theorem rank_ofModel {s : Sign} {u : UnpackedFloat} {n : Nat} (h : Sized s u n) :
    (Float.ofModel (Float.Model.pack u)).isNaN = false ∧
      rank (.ofModel (Float.Model.pack u)) = s.apply (min n infinite : Nat) := by
  obtain ⟨hsign, hmagnitude⟩ := h.pack
  constructor
  · rw [← Bool.not_eq_true, ← infinite_lt_iff, hmagnitude]
    omega
  · rw [rank, hsign, hmagnitude]

/-- The sum of two finite floats is the exact one, rounded. -/
theorem rounds_add {x y : Float} (hx : x.isFinite = true) (hy : y.isFinite = true) :
    (x + y).isNaN = false ∧ Rounds (value x + value y) (rank (x + y)) := by
  obtain ⟨r, j, hsized, hrounds⟩ := (sized_of_isFinite hx).1.add (sized_of_isFinite hy).1
  obtain ⟨hnumber, hrank⟩ := rank_ofModel hsized
  rw [← hrank] at hrounds
  exact ⟨hnumber, hrounds⟩

/-- The product of two finite floats is the exact one, rounded. -/
theorem rounds_mul {x y : Float} (hx : x.isFinite = true) (hy : y.isFinite = true) :
    (x * y).isNaN = false ∧ Rounds (value x * value y) (rank (x * y)) := by
  obtain ⟨j, hsized, hrounds⟩ := (sized_of_isFinite hx).1.mul (sized_of_isFinite hy).1
  obtain ⟨hnumber, hrank⟩ := rank_ofModel hsized
  rw [← hrank] at hrounds
  exact ⟨hnumber, hrounds⟩

/-- The difference of two finite floats is the exact one, rounded. -/
theorem rounds_sub {x y : Float} (hx : x.isFinite = true) (hy : y.isFinite = true) :
    (x - y).isNaN = false ∧ Rounds (value x - value y) (rank (x - y)) := by
  obtain ⟨hneg, hvalue⟩ := (sized_of_isFinite hy).1.neg
  obtain ⟨r, j, hsized, hrounds⟩ := (sized_of_isFinite hx).1.add hneg
  have hsub : x - y = .ofModel (Float.Model.pack
      (UnpackedFloat.sub Format.binary64 x.toModel.unpack y.toModel.unpack)) := rfl
  obtain ⟨hnumber, hrank⟩ := rank_ofModel hsized
  rw [← unpacked_sub, ← hsub] at hnumber hrank
  rw [← hrank, hvalue, ← sub_eq_add_neg] at hrounds
  exact ⟨hnumber, hrounds⟩

theorem rounds_value {x : Float} (hx : x.isFinite = true) : Rounds (value x) (rank x) := by
  obtain ⟨hsized, hlt⟩ := sized_of_isFinite hx
  have hrounds := hsized.rounds
  rwa [Nat.min_eq_left hlt.le] at hrounds

theorem Sized.valueOf_eq {s : Sign} {u : UnpackedFloat} {n : Nat} (h : Sized s u n) :
    valueOf u =
      (s.apply 1 : Int) * ((ofMagnitude n).mantissa * 2 ^ (ofMagnitude n).exponent) := by
  cases h with
  | zero =>
      have hzero : ofMagnitude 0 = ⟨0, -1074, false⟩ := rfl
      simp [valueOf, hzero]
  | finite hm hc => rw [ofMagnitude_place hc, valueOf]

theorem value_of_magnitude_eq_zero {x : Float} (hx : x.isFinite = true) (h : magnitude x = 0) :
    value x = 0 := by
  have hmantissa : (ofMagnitude 0).mantissa = 0 := rfl
  rw [value, (sized_of_isFinite hx).1.valueOf_eq, h, hmantissa]
  simp

theorem value_of_rank_eq_zero {x : Float} (hx : x.isFinite = true) (h : rank x = 0) :
    value x = 0 := by
  apply value_of_magnitude_eq_zero hx
  unfold rank at h
  cases hs : signOf x <;> rw [hs] at h <;> simp only [Sign.apply] at h <;> omega

/-- Floats at the same place stand for the same number. -/
theorem value_eq_of_rank_eq {x y : Float} (hx : x.isFinite = true) (hy : y.isFinite = true)
    (h : rank x = rank y) : value x = value y := by
  by_cases hzero : rank x = 0
  · rw [value_of_rank_eq_zero hx hzero, value_of_rank_eq_zero hy (h ▸ hzero)]
  · have hsame : signOf x = signOf y ∧ magnitude x = magnitude y := by
      unfold rank at h hzero
      cases hs : signOf x <;> cases ht : signOf y <;> rw [hs] at h hzero <;> rw [ht] at h <;>
        simp only [Sign.apply] at h hzero <;> simp <;> omega
    rw [value, value, (sized_of_isFinite hx).1.valueOf_eq, (sized_of_isFinite hy).1.valueOf_eq,
      hsame.1, hsame.2]

/-- Of two finite floats the one at the larger place stands for the larger number. -/
theorem value_le_iff {x y : Float} (hx : x.isFinite = true) (hy : y.isFinite = true) :
    value x ≤ value y ↔ rank x ≤ rank y := by
  refine ⟨(rounds_value hx).mono (rounds_value hy), fun h => ?_⟩
  by_contra hlt
  have hge := (rounds_value hy).mono (rounds_value hx) (not_le.1 hlt).le
  exact hlt (value_eq_of_rank_eq hx hy (by omega)).le

/-! ### Infinite floats -/

theorem add_comm (x y : Float) : x + y = y + x := by
  have hunpacked : ∀ u v : UnpackedFloat,
      UnpackedFloat.add Format.binary64 u v = UnpackedFloat.add Format.binary64 v u := by
    intro u v
    cases u <;> cases v <;> try rfl
    · next s t => cases s <;> cases t <;> rfl
    · next s t => cases s <;> cases t <;> rfl
    · next s m e _ t m' e' _ =>
        simp only [UnpackedFloat.add]
        rw [min_comm, Int.add_comm]
  change Float.ofModel (Float.Model.pack _) = Float.ofModel (Float.Model.pack _)
  rw [hunpacked]

theorem infinite_pos : 0 < infinite := by
  unfold infinite
  omega

/-- A float is no number, or infinite, or finite. -/
theorem float_cases (x : Float) :
    (x.isNaN = true ∧ x.toModel.unpack = .notANumber) ∨
      (x.isNaN = false ∧ ∃ s, x.toModel.unpack = .infinity s ∧ rank x = s.apply infinite) ∨
        x.isNaN = false ∧ x.isFinite = true ∧ -infinite < rank x ∧ rank x < infinite := by
  have hnan : x.isNaN = x.toModel.unpack.isNaN := rfl
  have hfinite : x.isFinite = x.toModel.unpack.isFinite := rfl
  have hpos := infinite_pos
  obtain ⟨hu, -⟩ | ⟨hu, hn⟩ | ⟨hu, hn⟩ := unpack_cases x
  · left
    rw [hnan, hu]
    exact ⟨rfl, rfl⟩
  · right
    left
    rw [hnan, rank, hn, hu]
    exact ⟨rfl, signOf x, rfl, rfl⟩
  · right
    right
    refine ⟨hnan.trans hu.isNaN_eq, hfinite.trans hu.isFinite_eq, ?_, ?_⟩
    · unfold rank
      cases signOf x <;> simp only [Sign.apply] <;> omega
    · unfold rank
      cases signOf x <;> simp only [Sign.apply] <;> omega

theorem pack_infinity (s : Sign) :
    (Float.ofModel (Float.Model.pack (.infinity s))).isNaN = false ∧
      rank (.ofModel (Float.Model.pack (.infinity s))) = s.apply infinite := by
  cases s <;> exact ⟨by decide, by decide⟩

theorem pack_notANumber : (Float.ofModel (Float.Model.pack .notANumber)).isNaN = true := by
  decide

theorem add_eq (x y : Float) :
    x + y = .ofModel (Float.Model.pack
      (UnpackedFloat.add Format.binary64 x.toModel.unpack y.toModel.unpack)) := rfl

theorem Sized.infinity_add {s t : Sign} {v : UnpackedFloat} {n : Nat} (h : Sized t v n) :
    UnpackedFloat.add Format.binary64 (.infinity s) v = .infinity s := by
  cases h <;> rfl

/-- An infinite float stays so, unless its opposite is added. -/
theorem add_of_infinity {x y : Float} {s : Sign} (hx : x.toModel.unpack = .infinity s)
    (hy : y.isNaN = false) :
    rank y = -s.apply infinite ∧ (x + y).isNaN = true ∨
      rank y ≠ -s.apply infinite ∧ (x + y).isNaN = false ∧ rank (x + y) = s.apply infinite := by
  have hpos := infinite_pos
  rw [add_eq, hx]
  obtain ⟨hnan, -⟩ | ⟨-, t, hv, hrank⟩ | ⟨-, hfinite, hlow, hhigh⟩ := float_cases y
  · rw [hnan] at hy
    cases hy
  · rw [hv, hrank]
    cases s <;> cases t
    · exact .inr ⟨by simp only [Sign.apply]; omega, pack_infinity .negative⟩
    · exact .inl ⟨by simp [Sign.apply], pack_notANumber⟩
    · exact .inl ⟨by simp [Sign.apply], pack_notANumber⟩
    · exact .inr ⟨by simp only [Sign.apply]; omega, pack_infinity .positive⟩
  · right
    refine ⟨by cases s <;> simp only [Sign.apply] <;> omega, ?_⟩
    rw [(sized_of_isFinite hfinite).1.infinity_add]
    exact pack_infinity s

/-- Where the sum of two floats stands in the order. -/
inductive SumPlace (x y : Float) : Prop
  | opposite (hsum : (x + y).isNaN = true)
      (hends : rank x = infinite ∧ rank y = -infinite ∨ rank x = -infinite ∧ rank y = infinite)
  | top (hsum : (x + y).isNaN = false) (hrank : rank (x + y) = infinite)
      (hends : rank x = infinite ∧ rank y ≠ -infinite ∨ rank x ≠ -infinite ∧ rank y = infinite)
  | bottom (hsum : (x + y).isNaN = false) (hrank : rank (x + y) = -infinite)
      (hends : rank x = -infinite ∧ rank y ≠ infinite ∨ rank x ≠ infinite ∧ rank y = -infinite)
  | finite (hsum : (x + y).isNaN = false) (hrounds : Rounds (value x + value y) (rank (x + y)))
      (hx : x.isFinite = true) (hy : y.isFinite = true)

theorem sumPlace {x y : Float} (hx : x.isNaN = false) (hy : y.isNaN = false) : SumPlace x y := by
  obtain ⟨hnan, -⟩ | ⟨-, s, hu, hrank⟩ | ⟨-, hxfinite, -⟩ := float_cases x
  · rw [hx] at hnan
    cases hnan
  · obtain ⟨hopposite, hsum⟩ | ⟨hother, hsum, hplace⟩ := add_of_infinity hu hy
    · apply SumPlace.opposite hsum
      cases s <;> simp only [Sign.apply] at * <;> omega
    · cases s with
      | positive => exact .top hsum hplace (.inl ⟨hrank, hother⟩)
      | negative => exact .bottom hsum hplace (.inl ⟨hrank, by simpa [Sign.apply] using hother⟩)
  · obtain ⟨hnan, -⟩ | ⟨-, s, hv, hrank⟩ | ⟨-, hyfinite, -⟩ := float_cases y
    · rw [hy] at hnan
      cases hnan
    · obtain ⟨hopposite, hsum⟩ | ⟨hother, hsum, hplace⟩ := add_of_infinity hv hx
      · rw [add_comm] at hsum
        apply SumPlace.opposite hsum
        cases s <;> simp only [Sign.apply] at * <;> omega
      · rw [add_comm] at hsum hplace
        cases s with
        | positive => exact .top hsum hplace (.inr ⟨hother, hrank⟩)
        | negative => exact .bottom hsum hplace (.inr ⟨by simpa [Sign.apply] using hother, hrank⟩)
    · obtain ⟨hsum, hrounds⟩ := rounds_add hxfinite hyfinite
      exact .finite hsum hrounds hxfinite hyfinite

theorem rank_bounds {x : Float} (h : x.isNaN = false) :
    -infinite ≤ rank x ∧ rank x ≤ infinite := by
  have hpos := infinite_pos
  obtain ⟨hnan, -⟩ | ⟨-, s, -, hrank⟩ | ⟨-, -, hlow, hhigh⟩ := float_cases x
  · rw [h] at hnan
    cases hnan
  · rw [hrank]
    cases s <;> simp only [Sign.apply] <;> omega
  · omega

theorem number_of_isFinite {x : Float} (h : x.isFinite = true) :
    x.isNaN = false ∧ -infinite < rank x ∧ rank x < infinite := by
  have hfinite : x.isFinite = x.toModel.unpack.isFinite := rfl
  obtain ⟨-, hu⟩ | ⟨-, s, hu, -⟩ | ⟨hnumber, -, hlow, hhigh⟩ := float_cases x
  · rw [hfinite, hu] at h
    cases h
  · rw [hfinite, hu] at h
    cases h
  · exact ⟨hnumber, hlow, hhigh⟩

/-- What is no number spoils every sum. -/
theorem number_of_add {x y : Float} (h : (x + y).isNaN = false) :
    x.isNaN = false ∧ y.isNaN = false := by
  have hspoilt : ∀ x y : Float, x.isNaN = true → (x + y).isNaN = true := by
    intro x y hx
    obtain ⟨-, hu⟩ | ⟨hnumber, -⟩ | ⟨hnumber, -⟩ := float_cases x
    · rw [add_eq, hu]
      exact pack_notANumber
    · rw [hx] at hnumber
      cases hnumber
    · rw [hx] at hnumber
      cases hnumber
  constructor
  · rw [← Bool.not_eq_true] at h ⊢
    exact fun hx => h (hspoilt x y hx)
  · rw [← Bool.not_eq_true, add_comm] at h
    rw [← Bool.not_eq_true]
    exact fun hy => h (hspoilt y x hy)

/-- Adding the same to two floats keeps their order, unless the smaller one alone is the opposite of
what is added. -/
theorem add_le_add_left {x y c : Float} (h : x ≤ y)
    (hleast : rank c = infinite → rank x = -infinite → rank y = -infinite)
    (hsum : (c + y).isNaN = false) : c + x ≤ c + y := by
  have hpos := infinite_pos
  obtain ⟨hc, hy⟩ := number_of_add hsum
  rw [le_iff] at h ⊢
  obtain ⟨hx, -, hle⟩ := h
  have hbounds := rank_bounds hy
  -- by where both sums lie: at one of the ends, between them, or nowhere
  cases sumPlace hc hx with
  | opposite hxsum hxends =>
      -- then the other float stands at the same end, and its sum is no number either
      cases sumPlace hc hy with
      | opposite hysum => cases hsum.symm.trans hysum
      | top _ _ hyends => omega
      | bottom _ _ hyends => omega
      | finite _ _ hcfinite hyfinite =>
          have := number_of_isFinite hcfinite
          omega
  | top hxsum hxrank hxends =>
      cases sumPlace hc hy with
      | opposite hysum => cases hsum.symm.trans hysum
      | top _ hyrank hyends => exact ⟨hxsum, hsum, by omega⟩
      | bottom _ _ hyends => omega
      | finite _ _ hcfinite hyfinite =>
          have := number_of_isFinite hcfinite
          have := number_of_isFinite hyfinite
          omega
  | bottom hxsum hxrank hxends =>
      exact ⟨hxsum, hsum, by have := (rank_bounds hsum).1; omega⟩
  | finite hxsum hxrounds hcfinite hxfinite =>
      have := number_of_isFinite hcfinite
      have := number_of_isFinite hxfinite
      refine ⟨hxsum, hsum, ?_⟩
      cases sumPlace hc hy with
      | opposite hysum => cases hsum.symm.trans hysum
      | top _ hyrank hyends =>
          have := rank_bounds hxsum
          omega
      | bottom _ _ hyends => omega
      | finite _ hyrounds _ hyfinite =>
          have hvalue := (value_le_iff hxfinite hyfinite).2 hle
          exact hxrounds.mono hyrounds (by linarith)

theorem value_nonneg {x : Float} (hx : x.isFinite = true) (h : 0 ≤ rank x) : 0 ≤ value x := by
  cases hs : signOf x with
  | positive =>
      rw [value, (sized_of_isFinite hx).1.valueOf_eq, hs]
      simp only [Sign.apply, Int.cast_one, one_mul]
      exact size_nonneg _ _
  | negative =>
      rw [rank, hs] at h
      simp only [Sign.apply] at h
      exact (value_of_magnitude_eq_zero hx (by omega)).ge

/-- A sum is not below a summand if the other one is not negative. -/
theorem rank_le_rank_add {x y : Float} (hx : 0 ≤ rank x) (hsum : (x + y).isNaN = false) :
    rank y ≤ rank (x + y) := by
  have hpos := infinite_pos
  obtain ⟨hxnumber, hynumber⟩ := number_of_add hsum
  cases sumPlace hxnumber hynumber with
  | opposite hnan => cases hsum.symm.trans hnan
  | top _ hrank =>
      have := rank_bounds hynumber
      omega
  | bottom _ hrank hends => omega
  | finite _ hrounds hxfinite hyfinite =>
      have hvalue := value_nonneg hxfinite hx
      exact (rounds_value hyfinite).mono hrounds (by linarith)

theorem rank_add_of_least {x y : Float} (hy : rank y = -infinite)
    (hsum : (x + y).isNaN = false) : rank (x + y) = -infinite := by
  have hpos := infinite_pos
  obtain ⟨hxnumber, hynumber⟩ := number_of_add hsum
  cases sumPlace hxnumber hynumber with
  | opposite hnan => cases hsum.symm.trans hnan
  | top _ _ hends => omega
  | bottom _ hrank => exact hrank
  | finite _ _ _ hyfinite =>
      have := number_of_isFinite hyfinite
      omega

/-- One float is not above another, and is the least of all only where the other is. -/
structure Under (x y : Float) : Prop where
  le : x ≤ y
  least : rank x = -infinite → rank y = -infinite

theorem Under.refl {x : Float} (h : x.isNaN = false) : Under x x :=
  ⟨(le_iff x x).2 ⟨h, h, Int.le_refl _⟩, id⟩

/-- Adding the same to both. -/
theorem Under.add_left {x y : Float} (h : Under x y) {c : Float} (hsum : (c + y).isNaN = false) :
    c + x ≤ c + y :=
  add_le_add_left h.le (fun _ => h.least) hsum

/-- Adding the same, which is not negative, to both. -/
theorem Under.add_nonneg_left {x y : Float} (h : Under x y) {c : Float} (hc : 0 ≤ rank c)
    (hsum : (c + y).isNaN = false) : Under (c + x) (c + y) := by
  have hle := h.add_left hsum
  refine ⟨hle, fun hleast => ?_⟩
  have hbelow := rank_le_rank_add hc ((le_iff _ _).1 hle).1
  have hbounds := rank_bounds ((le_iff _ _).1 h.le).1
  exact rank_add_of_least (h.least (by omega)) hsum

/-- Adding the same to two floats that are not negative. -/
theorem under_add_right {x y : Float} (hx : 0 ≤ rank x) (h : x ≤ y) {c : Float}
    (hsum : (y + c).isNaN = false) : Under (x + c) (y + c) := by
  have hpos := infinite_pos
  have hunder : Under x y := ⟨h, fun hleast => by omega⟩
  have hle : x + c ≤ y + c := by
    rw [add_comm y] at hsum
    rw [add_comm x, add_comm y]
    exact hunder.add_left hsum
  refine ⟨hle, fun hleast => ?_⟩
  have hbelow := rank_le_rank_add hx ((le_iff _ _).1 hle).1
  have hbounds := rank_bounds (number_of_add hsum).2
  exact rank_add_of_least (by omega) hsum

/-! ### The line of numbers with its ends -/

/-- The number that a float stands for, be it infinite. -/
def extended (x : Float) : WithBot (WithTop ℚ) :=
  if x.isFinite then ((value x : WithTop ℚ) : WithBot (WithTop ℚ))
  else if 0 < rank x then ⊤ else ⊥

/-- The cases of a float that is a number: finite, or infinite on either side. -/
theorem extended_cases {x : Float} (h : x.isNaN = false) :
    (extended x = ((value x : WithTop ℚ) : WithBot (WithTop ℚ)) ∧ x.isFinite = true ∧
        -infinite < rank x ∧ rank x < infinite) ∨
      (extended x = ⊤ ∧ rank x = infinite) ∨ extended x = ⊥ ∧ rank x = -infinite := by
  have hpos := infinite_pos
  by_cases hfinite : x.isFinite = true
  · have hbounds := (number_of_isFinite hfinite).2
    exact .inl ⟨by rw [extended, if_pos hfinite], hfinite, hbounds⟩
  · obtain ⟨hnan, -⟩ | ⟨-, s, -, hrank⟩ | ⟨-, hx, -⟩ := float_cases x
    · rw [h] at hnan
      cases hnan
    · cases s with
      | positive =>
          have hsign : 0 < rank x := by
            rw [hrank]
            simp only [Sign.apply]
            omega
          exact .inr (.inl ⟨by rw [extended, if_neg hfinite, if_pos hsign], hrank⟩)
      | negative =>
          have hsign : ¬ 0 < rank x := by
            rw [hrank]
            simp only [Sign.apply]
            omega
          exact .inr (.inr ⟨by rw [extended, if_neg hfinite, if_neg hsign], hrank⟩)
    · exact absurd hx hfinite

/-- Floats are in the order of the numbers that they stand for. -/
theorem extended_le_iff {x y : Float} (hx : x.isNaN = false) (hy : y.isNaN = false) :
    extended x ≤ extended y ↔ rank x ≤ rank y := by
  have hpos := infinite_pos
  have hxbounds := rank_bounds hx
  have hybounds := rank_bounds hy
  obtain ⟨hxe, hxfinite, hxlow, hxhigh⟩ | ⟨hxe, hxr⟩ | ⟨hxe, hxr⟩ := extended_cases hx
  · obtain ⟨hye, hyfinite, -⟩ | ⟨hye, hyr⟩ | ⟨hye, hyr⟩ := extended_cases hy
    · rw [hxe, hye, WithBot.coe_le_coe, WithTop.coe_le_coe, value_le_iff hxfinite hyfinite]
    · rw [hye]
      exact iff_of_true le_top (by omega)
    · rw [hxe, hye]
      exact iff_of_false (WithBot.bot_lt_coe _).not_ge (by omega)
  · obtain ⟨hye, -, -, hyhigh⟩ | ⟨hye, hyr⟩ | ⟨hye, hyr⟩ := extended_cases hy
    · rw [hxe, hye]
      exact iff_of_false (by simp) (by omega)
    · rw [hxe, hye]
      exact iff_of_true le_rfl (by omega)
    · rw [hxe, hye]
      exact iff_of_false (by simp) (by omega)
  · rw [hxe]
    exact iff_of_true bot_le (by omega)

theorem extended_congr {x y : Float} (hx : x.isNaN = false) (hy : y.isNaN = false)
    (h : rank x = rank y) : extended x = extended y :=
  le_antisymm ((extended_le_iff hx hy).2 h.le) ((extended_le_iff hy hx).2 h.ge)

end AskSql.Decimal
