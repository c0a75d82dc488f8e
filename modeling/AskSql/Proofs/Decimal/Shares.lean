import AskSql.Proofs.Decimal.Product

/-!
# Shares

A share is a float from 0 to 1.  What a share leaves of the whole is a share (`IsShare.rest`), and
so is a share of a share (`IsShare.mul`).  Taking the same share of two floats keeps their order
(`mul_le_mul_of_isFinite`): only an infinite factor could spoil the smaller product alone.
-/

namespace AskSql.Decimal

/-! ### Shares -/

/-- A float from 0 to 1. -/
def IsShare (x : Float) : Prop :=
  0 ≤ x ∧ x ≤ 1

section Shares

variable {x y c : Float}

theorem isFinite_of_le (hx : 0 ≤ x) (h : x ≤ y) (hy : y.isFinite = true) : x.isFinite = true := by
  have hinf := number_of_isFinite hy
  rw [nonneg_iff] at hx
  rw [le_iff] at h
  have hpos := infinite_pos
  exact finite_of_rank_lt hx.1 (by omega) (by omega)

theorem IsShare.isFinite (h : IsShare x) : x.isFinite = true :=
  isFinite_of_le h.1 h.2 value_one.1

theorem IsShare.value_mem (h : IsShare x) : 0 ≤ value x ∧ value x ≤ 1 := by
  obtain ⟨hone, hvalue⟩ := value_one
  refine ⟨value_nonneg h.isFinite ((nonneg_iff x).1 h.1).2, ?_⟩
  rw [← hvalue]
  exact (value_le_iff h.isFinite hone).2 ((le_iff x 1).1 h.2).2.2

/-- A share of a share. -/
theorem IsShare.mul (hx : IsShare x) (hy : IsShare y) : IsShare (x * y) :=
  mul_le_one hx hy

/-- What a share leaves of the whole. -/
theorem IsShare.rest (h : IsShare x) : IsShare (1.0 - x) := by
  obtain ⟨hone, hvalue⟩ := value_one
  have hliteral : (1.0 : Float) = 1 := rfl
  obtain ⟨hnumber, hrounds⟩ := rounds_sub hone h.isFinite
  obtain ⟨hlow, hhigh⟩ := h.value_mem
  have hplace := rounds_value hone
  rw [hvalue] at hplace hrounds
  rw [hliteral, IsShare, nonneg_iff, le_iff]
  exact ⟨⟨hnumber, rounds_zero.mono hrounds (by linarith)⟩, hnumber,
    (number_of_isFinite hone).1, hrounds.mono hplace (by linarith)⟩

/-- Multiplying by the same finite float keeps the order. -/
theorem mul_le_mul_of_isFinite (hx : 0 ≤ x) (h : x ≤ y) (hc : 0 ≤ c) (hfinite : c.isFinite = true)
    (hproduct : (y * c).isNaN = false) : x * c ≤ y * c := by
  rw [nonneg_iff] at hx hc
  by_cases hzero : rank x = 0
  · have hbounds := number_of_isFinite hfinite
    have hpos := infinite_pos
    have hyrank := ((le_iff x y).1 h).2.2
    have hnumber : (x * c).isNaN = false := by
      cases productPlace hx.1 hc.1 hx.2 hc.2 with
      | undefined _ hends => omega
      | top hproduct => exact hproduct
      | finite hproduct => exact hproduct
    have hleast := rank_mul_of_rank_eq_zero hzero hc.2 hnumber
    have hother := rank_mul_nonneg (hx.2.trans hyrank) hc.2 hproduct
    exact (le_iff _ _).2 ⟨hnumber, hproduct, by omega⟩
  · exact mul_le_mul_right hx.2 h hc.2 (fun hrank => absurd hrank hzero) hproduct

end Shares

/-! ### The smaller of two -/

theorem smaller_le_right {x y : Float} (hy : y.isNaN = false) : smaller x y ≤ y := by
  unfold smaller
  rw [hy]
  split
  · exact le_self hy
  · next hx =>
      simp only [Bool.false_eq_true, if_false]
      split
      · exact le_self hy
      · next hlt => exact le_of_not_lt hy (Bool.eq_false_iff.2 hx) hlt

theorem le_smaller {x y z : Float} (hx : x.isNaN = false → z ≤ x) (hy : z ≤ y) :
    z ≤ smaller x y := by
  unfold smaller
  split
  · exact hy
  · next hnumber =>
      split
      · exact hx (Bool.eq_false_iff.2 hnumber)
      · split
        · exact hy
        · exact hx (Bool.eq_false_iff.2 hnumber)

/-- A share that is enlarged, and cut off where it would be more than the whole. -/
theorem IsShare.smaller_mul {x c : Float} (hx : IsShare x) (hc : 0 ≤ c) :
    IsShare (smaller (x * c) 1.0) := by
  have hone : (1.0 : Float).isNaN = false := by decide
  refine ⟨le_smaller (fun hnumber => ?_) zero_le_one, smaller_le_right hone⟩
  have hnonneg := ((nonneg_iff x).1 hx.1).2
  exact (nonneg_iff _).2 ⟨hnumber, rank_mul_nonneg hnonneg ((nonneg_iff c).1 hc).2 hnumber⟩

end AskSql.Decimal
