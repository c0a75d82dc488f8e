import AskSql.Proofs.Decimal.Rounding

/-!
# The order of floats

The bits of a float below its sign are its place among the sizes of floats (`magnitude`), and with
the sign its place in the order of all floats (`rank`): to unpack a float is to look up the size at
its place (`unpack_cases`), to pack a result is to write down its place (`Sized.pack`).  So floats
are compared like the numbers of their places, apart from those that are no number and compare with
nothing (`lt_iff`, `le_iff`, `beq_iff`).
-/

namespace AskSql.Decimal

open Float.Model Float.Model.UnpackedFloat

/-- The place of a float among the sizes, sign aside. -/
def magnitude (x : Float) : Nat :=
  x.toBits.toNat % 2 ^ 63

/-- The sign of a float. -/
def signOf (x : Float) : Sign :=
  if isNegative x then .negative else .positive

/-- The place of a float in the order of floats; both zeros have the place 0. -/
def rank (x : Float) : Int :=
  (signOf x).apply (magnitude x)

/-! ### Packed floats -/

theorem toNat_packComponents (s : Sign) (e : BitVec 11) (m : BitVec 52) :
    (packComponents Format.binary64 s e m).toNat =
      s.toBitVec.toNat * 2 ^ 63 + (e.toNat * 2 ^ 52 + m.toNat) := by
  have he := e.isLt
  have hm := m.isLt
  unfold packComponents
  rw [BitVec.toNat_append, BitVec.toNat_append, ← Nat.shiftLeft_add_eq_or_of_lt hm,
    ← Nat.shiftLeft_add_eq_or_of_lt he, Nat.shiftLeft_eq, Nat.shiftLeft_eq]
  omega

theorem toNat_toBits_ofModel (u : UnpackedFloat) :
    (Float.ofModel (Float.Model.pack u)).toBits.toNat =
      (UnpackedFloat.pack Format.binary64 u).toNat := rfl

theorem signOf_of_toBits {x : Float} {s : Sign} {n : Nat} (hn : n < 2 ^ 63)
    (h : x.toBits.toNat = s.toBitVec.toNat * 2 ^ 63 + n) : signOf x = s ∧ magnitude x = n := by
  constructor
  · cases s with
    | positive =>
        have hbit : isNegative x ≠ true := by
          rw [Ne, isNegative_iff, h]
          simp only [Sign.toBitVec]
          change ¬ (0 * 2 ^ 63 + n) / 2 ^ 63 = 1
          omega
        rw [signOf, if_neg hbit]
    | negative =>
        have hbit : isNegative x = true := by
          rw [isNegative_iff, h]
          change (1 * 2 ^ 63 + n) / 2 ^ 63 = 1
          omega
        rw [signOf, if_pos hbit]
  · rw [magnitude, h]
    omega

/-- A result that is packed keeps its sign, and its place unless that lies behind the finite
ones. -/
theorem Sized.pack {s : Sign} {u : UnpackedFloat} {n : Nat} (h : Sized s u n) :
    signOf (.ofModel (Float.Model.pack u)) = s ∧
      magnitude (.ofModel (Float.Model.pack u)) = min n infinite := by
  apply signOf_of_toBits
  · exact (Nat.min_le_right n infinite).trans_lt (by norm_num [infinite])
  rw [toNat_toBits_ofModel]
  cases h with
  | zero =>
      change (packComponents Format.binary64 s 0 0).toNat = _
      rw [toNat_packComponents]
      rfl
  | @finite m e hm hc =>
      obtain ⟨hlt, he, hnormal⟩ := hc
      have hbias : (e + Format.binary64.exponentBias +
          Format.binary64.mantissaBitsWithoutImplicit).toNat = (e + 1075).toNat := by
        change (e + (2 ^ (11 - 1) - 1 : Nat) + (52 : Nat)).toNat = _
        omega
      have hlog : m.log2 + 1 = Format.binary64.mantissaBits ↔ 2 ^ 52 ≤ m := by
        change m.log2 + 1 = 53 ↔ _
        rw [← Nat.le_log2 hm.ne']
        have := (Nat.log2_lt hm.ne').2 hlt
        omega
      rw [UnpackedFloat.pack]
      simp only [hbias, hlog]
      change (if 2 ^ 11 ≤ _ then _ else _ : BitVec _).toNat = _
      -- past the last exponent, with the leading bit, and without it
      split
      · change (packComponents Format.binary64 s (-1#11) 0#52).toNat = _
        rw [toNat_packComponents]
        change _ + (2047 * 2 ^ 52 + 0) = _
        unfold place infinite
        omega
      · split
        · rw [toNat_packComponents, BitVec.toNat_ofNat, BitVec.toNat_ofNat]
          unfold place infinite
          omega
        · rw [toNat_packComponents, BitVec.toNat_ofNat, BitVec.toNat_ofNat]
          unfold place infinite
          omega

/-! ### Unpacked floats -/

theorem toNat_unpackMantissa (b : BitVec 64) :
    (@unpackMantissa Format.binary64 b).toNat = b.toNat % 2 ^ 52 := by
  simp [unpackMantissa, Nat.shiftRight_eq_div_pow]

theorem toNat_unpackExponent (b : BitVec 64) :
    (@unpackExponent Format.binary64 b).toNat = b.toNat / 2 ^ 52 % 2 ^ 11 := by
  simp [unpackExponent, Nat.shiftRight_eq_div_pow]

theorem toNat_unpackSign (b : BitVec 64) :
    (@unpackSign Format.binary64 b).toNat = b.toNat / 2 ^ 63 % 2 := by
  simp [unpackSign, Nat.shiftRight_eq_div_pow]

theorem sign_unpackSign (x : Float) :
    Sign.ofBitVec (@unpackSign Format.binary64 x.toBits.toBitVec) = signOf x := by
  have hbit := toNat_unpackSign x.toBits.toBitVec
  have hlt := x.toBits.toNat_lt
  change _ = x.toBits.toNat / 2 ^ 63 % 2 at hbit
  unfold Sign.ofBitVec signOf
  by_cases hneg : isNegative x = true
  · rw [if_pos hneg, if_neg]
    rw [isNegative_iff] at hneg
    intro hzero
    rw [hzero, hneg] at hbit
    cases hbit
  · rw [if_neg hneg, if_pos]
    rw [isNegative_iff] at hneg
    apply BitVec.eq_of_toNat_eq
    rw [hbit]
    change _ = 0
    omega

theorem Sized.of_place {s : Sign} {m n : Nat} {e : Int} {hm : 0 < m} (h : Canonical m e)
    (hn : n = place m e) : Sized s (.finite s m e hm) n :=
  hn ▸ .finite hm h

/-- The place of a float is made up of its two fields. -/
theorem magnitude_eq (x : Float) :
    magnitude x = (@unpackExponent Format.binary64 x.toBits.toBitVec).toNat * 2 ^ 52 +
      (@unpackMantissa Format.binary64 x.toBits.toBitVec).toNat := by
  rw [toNat_unpackMantissa, toNat_unpackExponent]
  change x.toBits.toNat % 2 ^ 63 =
    x.toBits.toNat / 2 ^ 52 % 2 ^ 11 * 2 ^ 52 + x.toBits.toNat % 2 ^ 52
  omega

/-- Bits with an exponent other than the last one stand for the size at their place. -/
theorem sized_unpack {b : BitVec 64}
    (h : @unpackExponent Format.binary64 b ≠ -1#11) :
    Sized (.ofBitVec (@unpackSign Format.binary64 b))
      (UnpackedFloat.unpack Format.binary64 b)
      ((@unpackExponent Format.binary64 b).toNat * 2 ^ 52 +
        (@unpackMantissa Format.binary64 b).toNat) := by
  have hbias : (Format.binary64.exponentBias : Int) +
      (Format.binary64.mantissaBitsWithoutImplicit : Int) = 1075 := rfl
  unfold UnpackedFloat.unpack
  dsimp only
  rw [if_neg h]
  generalize Sign.ofBitVec _ = s
  generalize @unpackExponent Format.binary64 b = e
  have hf : (@unpackMantissa Format.binary64 b).toNat < 2 ^ 52 := BitVec.isLt _
  by_cases hsub : e = 0#11
  · subst hsub
    have hleast : (0#11).toNat = 0 := rfl
    rw [if_pos rfl, hleast, Nat.zero_mul, Nat.zero_add]
    split
    · next hzero =>
        rw [hzero]
        exact .zero
    · apply Sized.of_place
      · rw [hbias]
        exact ⟨by omega, by norm_num, .inr (by norm_num)⟩
      · rw [hbias]
        unfold place
        omega
  · have hpos : e.toNat ≠ 0 := fun he => hsub (BitVec.eq_of_toNat_eq he)
    -- the leading digit stands before the others
    have hfull : (1#1 ++ @unpackMantissa Format.binary64 b).toNat =
        2 ^ 52 + (@unpackMantissa Format.binary64 b).toNat := by
      rw [BitVec.toNat_append, ← Nat.shiftLeft_add_eq_or_of_lt (BitVec.isLt _)]
      rfl
    rw [if_neg hsub]
    apply Sized.of_place
    · rw [hfull, hbias]
      exact ⟨by omega, by omega, .inl (by omega)⟩
    · rw [hfull, hbias]
      unfold place
      omega

/-- A float is no number, or infinite, or it stands for the size at its place. -/
theorem unpack_cases (x : Float) :
    (x.toModel.unpack = .notANumber ∧ infinite < magnitude x) ∨
      (x.toModel.unpack = .infinity (signOf x) ∧ magnitude x = infinite) ∨
        (Sized (signOf x) x.toModel.unpack (magnitude x) ∧ magnitude x < infinite) := by
  have hunpack : x.toModel.unpack = UnpackedFloat.unpack Format.binary64 x.toBits.toBitVec := rfl
  have hsized := sized_unpack (b := x.toBits.toBitVec)
  rw [hunpack]
  rw [sign_unpackSign, ← magnitude_eq] at hsized
  have hsplit := magnitude_eq x
  have hfraction : (@unpackMantissa Format.binary64 x.toBits.toBitVec).toNat < 2 ^ 52 :=
    BitVec.isLt _
  have hexponent : (@unpackExponent Format.binary64 x.toBits.toBitVec).toNat < 2 ^ 11 :=
    BitVec.isLt _
  -- the last exponent is that of infinity, and of what is no number
  by_cases hlast : @unpackExponent Format.binary64 x.toBits.toBitVec = -1#11
  · unfold UnpackedFloat.unpack
    dsimp only
    rw [sign_unpackSign, if_pos hlast]
    rw [hlast] at hsplit
    change _ = 2047 * 2 ^ 52 + _ at hsplit
    by_cases hzero : @unpackMantissa Format.binary64 x.toBits.toBitVec = 0#52
    · right
      left
      rw [if_pos hzero, hsplit, hzero]
      exact ⟨rfl, rfl⟩
    · left
      rw [if_neg hzero]
      have hne : (@unpackMantissa Format.binary64 x.toBits.toBitVec).toNat ≠ 0 :=
        fun h => hzero (BitVec.eq_of_toNat_eq h)
      refine ⟨rfl, ?_⟩
      unfold infinite
      omega
  · have hne : (@unpackExponent Format.binary64 x.toBits.toBitVec).toNat ≠ 2047 :=
      fun h => hlast (BitVec.eq_of_toNat_eq h)
    refine .inr (.inr ⟨hsized hlast, ?_⟩)
    unfold infinite
    omega

/-- A float that is a number or infinite, with its sign and its place. -/
inductive Placed (s : Sign) : UnpackedFloat → Nat → Prop
  | infinity : Placed s (.infinity s) infinite
  | finite {u : UnpackedFloat} {n : Nat} (h : Sized s u n) (hn : n < infinite) : Placed s u n

theorem compare_place {m k : Nat} {e f : Int} (hm : Canonical m e) (hk : Canonical k f) :
    (compare e f).then (compare m k) = compare (place m e : Int) (place k f) := by
  obtain ⟨hm, he, hmnormal⟩ := hm
  obtain ⟨hk, hf, hknormal⟩ := hk
  -- the places of one exponent lie below those of the next
  obtain hlt | rfl | hgt := lt_trichotomy e f
  · rw [Int.compare_eq_lt.2 hlt, eq_comm]
    apply Int.compare_eq_lt.2
    unfold place
    omega
  · rw [Int.compare_eq_eq.2 rfl]
    change compare m k = _
    obtain hlt | rfl | hgt := lt_trichotomy m k
    · rw [Nat.compare_eq_lt.2 hlt, eq_comm]
      apply Int.compare_eq_lt.2
      unfold place
      omega
    · rw [Nat.compare_eq_eq.2 rfl, eq_comm]
      exact Int.compare_eq_eq.2 rfl
    · rw [Nat.compare_eq_gt.2 hgt, eq_comm]
      apply Int.compare_eq_gt.2
      unfold place
      omega
  · rw [Int.compare_eq_gt.2 hgt, eq_comm]
    apply Int.compare_eq_gt.2
    unfold place
    omega

theorem Sized.place_pos {s : Sign} {m n : Nat} {e : Int} {hm : 0 < m}
    (h : Sized s (.finite s m e hm) n) : 0 < n := by
  cases h
  unfold place
  omega

theorem some_lt {i j : Int} (h : i < j) : some Ordering.lt = some (compare i j) :=
  congrArg some (Int.compare_eq_lt.2 h).symm

theorem some_gt {i j : Int} (h : j < i) : some Ordering.gt = some (compare i j) :=
  congrArg some (Int.compare_eq_gt.2 h).symm

/-- Finite floats are compared by their places in the order. -/
theorem Sized.compare_eq {s t : Sign} {u v : UnpackedFloat} {n k : Nat} (hu : Sized s u n)
    (hv : Sized t v k) : u.compare v = some (compare (s.apply n) (t.apply k)) := by
  cases hu with
  | zero =>
      cases hv with
      | zero => cases s <;> cases t <;> rfl
      | @finite m e hm hc =>
          have hpos : 0 < place m e := (Sized.finite (s := t) hm hc).place_pos
          cases t with
          | positive => exact some_lt (by cases s <;> simp only [Sign.apply] <;> omega)
          | negative => exact some_gt (by cases s <;> simp only [Sign.apply] <;> omega)
  | @finite m e hm hc =>
      have hpos : 0 < place m e := (Sized.finite (s := s) hm hc).place_pos
      cases hv with
      | zero =>
          cases s with
          | positive => exact some_gt (by cases t <;> simp only [Sign.apply] <;> omega)
          | negative => exact some_lt (by cases t <;> simp only [Sign.apply] <;> omega)
      | @finite m' e' hm' hc' =>
          have hpos' : 0 < place m' e' := (Sized.finite (s := t) hm' hc').place_pos
          cases s with
          | positive =>
              cases t with
              | positive => exact congrArg some (compare_place hc hc')
              | negative => exact some_gt (by simp only [Sign.apply]; omega)
          | negative =>
              cases t with
              | positive => exact some_lt (by simp only [Sign.apply]; omega)
              | negative =>
                  -- below zero the larger size comes first
                  change some (((compare e e').then (compare m m')).swap) = _
                  rw [compare_place hc hc', Int.compare_swap]
                  obtain hless | heq | hless := lt_trichotomy (place m e) (place m' e')
                  · rw [Int.compare_eq_gt.2 (by omega)]
                    exact some_gt (by simp only [Sign.apply]; omega)
                  · rw [heq]
                    simp
                  · rw [Int.compare_eq_lt.2 (by omega)]
                    exact some_lt (by simp only [Sign.apply]; omega)

/-- So are infinite ones. -/
theorem Placed.compare_eq {s t : Sign} {u v : UnpackedFloat} {n k : Nat} (hu : Placed s u n)
    (hv : Placed t v k) : u.compare v = some (compare (s.apply n) (t.apply k)) := by
  cases hu with
  | infinity =>
      cases hv with
      | infinity => cases s <;> cases t <;> rfl
      | finite h hk =>
          cases s with
          | positive =>
              have hless : t.apply k < Sign.positive.apply infinite := by
                cases t <;> simp only [Sign.apply] <;> omega
              cases h <;> exact some_gt hless
          | negative =>
              have hless : Sign.negative.apply infinite < t.apply k := by
                cases t <;> simp only [Sign.apply] <;> omega
              cases h <;> exact some_lt hless
  | finite h hn =>
      cases hv with
      | infinity =>
          cases t with
          | positive =>
              have hless : s.apply n < Sign.positive.apply infinite := by
                cases s <;> simp only [Sign.apply] <;> omega
              cases h <;> exact some_lt hless
          | negative =>
              have hless : Sign.negative.apply infinite < s.apply n := by
                cases s <;> simp only [Sign.apply] <;> omega
              cases h <;> exact some_gt hless
      | finite h' hk => exact h.compare_eq h'

theorem Sized.isNaN_eq {s : Sign} {u : UnpackedFloat} {n : Nat} (h : Sized s u n) :
    u.isNaN = false := by
  cases h <;> rfl

theorem Sized.isFinite_eq {s : Sign} {u : UnpackedFloat} {n : Nat} (h : Sized s u n) :
    u.isFinite = true := by
  cases h <;> rfl

theorem isNaN_or_placed (x : Float) :
    (x.isNaN = true ∧ x.toModel.unpack = .notANumber) ∨
      (x.isNaN = false ∧ Placed (signOf x) x.toModel.unpack (magnitude x)) := by
  have hnan : x.isNaN = x.toModel.unpack.isNaN := rfl
  obtain ⟨hu, -⟩ | ⟨hu, hn⟩ | ⟨hu, hn⟩ := unpack_cases x
  · left
    rw [hnan, hu]
    exact ⟨rfl, rfl⟩
  · right
    rw [hnan, hu, hn]
    exact ⟨rfl, .infinity⟩
  · right
    exact ⟨hnan.trans hu.isNaN_eq, .finite hu hn⟩

/-- What is no number compares with nothing. -/
theorem compare_unpack (x y : Float) :
    x.toModel.unpack.compare y.toModel.unpack =
      if x.isNaN || y.isNaN then none else some (compare (rank x) (rank y)) := by
  obtain ⟨hx, hu⟩ | ⟨hx, hu⟩ := isNaN_or_placed x
  · rw [hx, hu]
    rfl
  · obtain ⟨hy, hv⟩ | ⟨hy, hv⟩ := isNaN_or_placed y
    · rw [hx, hy, hv]
      cases x.toModel.unpack <;> rfl
    · rw [hx, hy, hu.compare_eq hv]
      rfl

theorem lt_iff (x y : Float) :
    x < y ↔ x.isNaN = false ∧ y.isNaN = false ∧ rank x < rank y := by
  have hdef : x < y ↔ (x.toModel.unpack.compare y.toModel.unpack == some .lt) = true := by
    change decide _ = true ↔ _
    rw [decide_eq_true_iff]
    rfl
  rw [hdef, compare_unpack, beq_iff_eq]
  cases hx : x.isNaN <;> cases hy : y.isNaN <;> simp [Int.compare_eq_lt]

theorem le_iff (x y : Float) :
    x ≤ y ↔ x.isNaN = false ∧ y.isNaN = false ∧ rank x ≤ rank y := by
  have hdef : x ≤ y ↔ (x.toModel.unpack.compare y.toModel.unpack).any (·.isLE) = true := by
    change decide _ = true ↔ _
    rw [decide_eq_true_iff]
    rfl
  rw [hdef, compare_unpack]
  cases hx : x.isNaN <;> cases hy : y.isNaN <;> simp [Int.isLE_compare]

theorem beq_iff (x y : Float) :
    (x == y) = true ↔ x.isNaN = false ∧ y.isNaN = false ∧ rank x = rank y := by
  have hdef : (x == y) = true ↔ (x.toModel.unpack.compare y.toModel.unpack == some .eq) = true :=
    Iff.rfl
  rw [hdef, compare_unpack, beq_iff_eq]
  cases hx : x.isNaN <;> cases hy : y.isNaN <;> simp

theorem le_trans {x y z : Float} (h : x ≤ y) (h' : y ≤ z) : x ≤ z := by
  rw [le_iff] at *
  exact ⟨h.1, h'.2.1, h.2.2.trans h'.2.2⟩

theorem le_self {x : Float} (hx : x.isNaN = false) : x ≤ x :=
  (le_iff x x).2 ⟨hx, hx, Int.le_refl _⟩

theorem le_of_lt {x y : Float} (h : x < y) : x ≤ y := by
  rw [lt_iff] at h
  exact (le_iff x y).2 ⟨h.1, h.2.1, h.2.2.le⟩

theorem lt_of_le_of_lt {x y z : Float} (h : x ≤ y) (h' : y < z) : x < z := by
  rw [le_iff] at h
  rw [lt_iff] at h' ⊢
  exact ⟨h.1, h'.2.1, by omega⟩

theorem lt_of_lt_of_le {x y z : Float} (h : x < y) (h' : y ≤ z) : x < z := by
  rw [lt_iff] at h
  rw [le_iff] at h'
  rw [lt_iff]
  exact ⟨h.1, h'.2.1, by omega⟩

/-- Of two numbers one is at most the other. -/
theorem le_of_not_lt {x y : Float} (hx : x.isNaN = false) (hy : y.isNaN = false) (h : ¬x < y) :
    y ≤ x := by
  rw [lt_iff] at h
  rw [le_iff]
  refine ⟨hy, hx, ?_⟩
  by_contra hrank
  exact h ⟨hx, hy, by omega⟩

/-- A float is not negative if its place is none below that of zero. -/
theorem nonneg_iff (x : Float) : 0 ≤ x ↔ x.isNaN = false ∧ 0 ≤ rank x := by
  have hnumber : (0 : Float).isNaN = false := by decide
  have hzero : rank 0 = 0 := by decide
  rw [le_iff, hzero, and_iff_right hnumber]

end AskSql.Decimal
