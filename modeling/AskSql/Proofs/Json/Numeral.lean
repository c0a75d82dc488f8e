import AskSql.Json.Reader
import AskSql.Proofs.Text.Digits

/-!
# Numbers in documents

Whole numbers and floats are written as numbers of the grammar (`Numeral.WellFormed`), and the
reader gives back such a number as it was written (`numeral?_chars`).  The number gives back the
whole number (`Numeral.ofInt_inj`) or the float (`Numeral.ofFloat_inj`) that it was written for.
-/

namespace AskSql

namespace Numeral

/-- A number of the grammar: digits, and no zero in front of others. -/
structure WellFormed (n : Numeral) : Prop where
  whole_digits : ∀ c ∈ n.whole, Text.isAsciiDigit c = true
  whole_ne_nil : n.whole ≠ []
  whole_head : n.whole.head? = some '0' → n.whole.length = 1
  fraction : ∀ ds, n.fraction = some ds → ds ≠ [] ∧ ∀ c ∈ ds, Text.isAsciiDigit c = true
  exponent : ∀ negative ds, n.exponent = some (negative, ds) →
    ds ≠ [] ∧ ∀ c ∈ ds, Text.isAsciiDigit c = true

theorem wellFormed_ofInt (n : Int) : (ofInt n).WellFormed where
  whole_digits := fun _ hc => Text.isAsciiDigit_of_isDigit (isDigit_of_mem_digits hc)
  whole_ne_nil := Nat.toDigits_ne_nil
  whole_head := by
    intro h
    change (Nat.toDigits 10 n.natAbs).length = 1
    rw [head?_toDigits h]
    rfl
  fraction := fun _ h => by cases h
  exponent := fun _ _ h => by cases h

theorem ofInt_inj {n k : Int} (h : ofInt n = ofInt k) : n = k := by
  have hsign : decide (n < 0) = decide (k < 0) := congrArg negative h
  have hsize : n.natAbs = k.natAbs := toDigits_unique (congrArg whole h)
  rw [decide_eq_decide] at hsign
  omega

/-! ### Floats -/

/-- The number that is written, its sign aside. -/
def size (n : Numeral) : ℚ :=
  let places := n.fraction.getD []
  let power : Int := match n.exponent with
    | some (true, ds) => -Nat.ofDigitChars 10 ds 0
    | some (false, ds) => Nat.ofDigitChars 10 ds 0
    | none => 0
  Nat.ofDigitChars 10 (n.whole ++ places) 0 * 10 ^ (power - places.length)

open Decimal

theorem size_of_point (negative : Bool) (whole places : List Char) :
    size ⟨negative, whole, some places, none⟩ =
      Nat.ofDigitChars 10 (whole ++ places) 0 * 10 ^ (-(places.length : Int)) := by
  simp only [size, Option.getD_some, zero_sub]

/-- Digits with a point behind the first one. -/
theorem size_of_lead (negative : Bool) (ds : List Char) (lead : Int) :
    size ⟨negative, ds.take 1, if ds.length ≤ 1 then none else some ds.tail,
        some (lead < 0, digitChars lead.natAbs)⟩ =
      Nat.ofDigitChars 10 ds 0 * 10 ^ (lead - (ds.length - 1 : Nat)) := by
  have hdigits : ds.take 1 ++ (if ds.length ≤ 1 then none else some ds.tail).getD [] = ds ∧
      ((if ds.length ≤ 1 then none else some ds.tail).getD []).length = ds.length - 1 := by
    split
    · next hlength => exact ⟨by simp [List.take_of_length_le hlength], by simp; omega⟩
    · cases ds with
      | nil => simp
      | cons c ds => simp
  have hpower : (match some (decide (lead < 0), digitChars lead.natAbs) with
      | some (true, ds) => -(Nat.ofDigitChars 10 ds 0 : Int)
      | some (false, ds) => Nat.ofDigitChars 10 ds 0
      | none => 0) = lead := by
    by_cases hlead : lead < 0
    · have habs : (lead.natAbs : Int) = -lead := Int.ofNat_natAbs_of_nonpos hlead.le
      simp only [hlead, decide_true, ofDigitChars_digitChars, habs, neg_neg]
    · have habs : (lead.natAbs : Int) = lead := Int.natAbs_of_nonneg (Int.not_lt.1 hlead)
      simp only [hlead, decide_false, ofDigitChars_digitChars, habs]
  simp only [size, hdigits.1, hdigits.2]
  rw [hpower]

/-- The number that is written for a float is its shortest decimal. -/
theorem size_ofFloat (x : Float) : (ofFloat x).size = (shortestOf .toEven x).value := by
  unfold ofFloat
  generalize shortestOf .toEven x = d
  obtain ⟨hnumber, hlength⟩ := number_spread d
  have hsplit : (10 : ℚ) ^ d.exponent =
      10 ^ d.exponent.toNat * 10 ^ (-(((-d.exponent).toNat : Nat) : Int)) := by
    rw [← zpow_natCast, ← zpow_add₀ (by norm_num)]
    congr 1
    omega
  dsimp only
  -- with a point, or with an exponent behind the first digit
  split
  · rw [size_of_point, Scaled.value, hsplit]
    cases hplaces : d.spread.2 with
    | nil =>
        rw [hplaces, List.append_nil] at hnumber
        rw [hplaces] at hlength
        have hzero : ∀ n, Nat.ofDigitChars 10 ['0'] n = 10 * n := fun _ => rfl
        simp only [List.isEmpty_nil, if_true, Nat.ofDigitChars_append, hnumber, hzero, ← hlength,
          List.length_singleton, List.length_nil, Nat.cast_one, Nat.cast_zero, neg_zero, zpow_zero,
          zpow_neg_one]
        push_cast
        ring
    | cons c cs =>
        rw [hplaces] at hnumber hlength
        simp only [List.isEmpty_cons, Bool.false_eq_true, if_false, hnumber, ← hlength]
        push_cast
        ring
  · rw [size_of_lead, ofDigitChars_digitChars, Scaled.value]
    have hne := List.length_pos_of_ne_nil (digitChars_ne_nil d.digits)
    congr 2
    omega

theorem ofFloat_inj {x y : Float} (h : ofFloat x = ofFloat y) : x = y := by
  have hsign : ∀ z : Float, (ofFloat z).negative = isNegative z := by
    intro z
    unfold ofFloat
    dsimp only
    split
    · rfl
    · rfl
  apply eq_of_shortestOf
  · rw [← hsign, h, hsign]
  · rw [← size_ofFloat, h, size_ofFloat]

theorem exponent_shortestOf {x : Float} (h : (shortestOf .toEven x).digits = 0) :
    (shortestOf .toEven x).exponent = 0 := by
  by_cases hzero : (Binary.ofBits x.toBits).mantissa = 0
  · simp [shortestOf, hzero]
  · obtain ⟨d, -, hd, hpos⟩ := shortestOf_spec .toEven hzero
    rw [← hd, Scaled.value, h, Nat.cast_zero, zero_mul] at hpos
    exact absurd hpos (lt_irrefl 0)

theorem wellFormed_ofFloat (x : Float) : (ofFloat x).WellFormed := by
  have hexponent := exponent_shortestOf (x := x)
  unfold ofFloat
  generalize shortestOf .toEven x = d at hexponent
  obtain ⟨hdigits, hwhole⟩ := spread_digits d
  obtain ⟨hbefore, hbehind⟩ := List.forall_mem_append.1 hdigits
  have hds : ∀ n, ∀ c ∈ digitChars n, Text.isAsciiDigit c = true := fun n c hc =>
    Text.isAsciiDigit_of_isDigit (isDigit_of_mem_digits hc)
  dsimp only
  split
  · refine ⟨fun c hc => Text.isAsciiDigit_of_isDigit (hbefore c hc), hwhole, spread_head hexponent,
      ?_, ?_⟩
    · intro ds h
      obtain rfl := Option.some.inj h
      split
      · exact ⟨by simp, by simp; rfl⟩
      · next hempty =>
          exact ⟨by simpa using hempty, fun c hc => Text.isAsciiDigit_of_isDigit (hbehind c hc)⟩
    · intro negative ds h
      cases h
  · refine ⟨fun c hc => hds _ c (List.mem_of_mem_take hc), ?_, ?_, ?_, ?_⟩
    · simpa using digitChars_ne_nil d.digits
    · intro _
      have hpos := List.length_pos_of_ne_nil (digitChars_ne_nil d.digits)
      simp only [List.length_take]
      omega
    · intro ds h
      split at h
      · cases h
      · next hlength =>
          obtain rfl := Option.some.inj h
          refine ⟨?_, fun c hc => hds _ c (List.mem_of_mem_tail hc)⟩
          intro hnil
          have htail := congrArg List.length hnil
          rw [List.length_tail, List.length_nil] at htail
          omega
    · intro negative ds h
      obtain ⟨-, rfl⟩ := Prod.mk.inj (Option.some.inj h)
      exact ⟨digitChars_ne_nil _, hds _⟩

end Numeral

/-! ### Reading -/

namespace Json

/-- No number goes on here. -/
def EndsNumber (rest : List Char) : Prop :=
  ∀ c ∈ rest.head?, Text.isAsciiDigit c = false ∧ c ≠ '.' ∧ c ≠ 'e' ∧ c ≠ 'E'

theorem digits?_append {ds rest : List Char} (hne : ds ≠ [])
    (hds : ∀ c ∈ ds, Text.isAsciiDigit c = true)
    (hrest : ∀ c ∈ rest.head?, Text.isAsciiDigit c = false) :
    digits? (ds ++ rest) = some (ds, rest) := by
  have htake : rest.takeWhile Text.isAsciiDigit = [] ∧ rest.dropWhile Text.isAsciiDigit = rest := by
    cases rest with
    | nil => exact ⟨rfl, rfl⟩
    | cons c cs =>
        have hc := hrest c rfl
        simp [hc]
  have hempty : ds.isEmpty = false := by simpa using hne
  simp only [digits?, List.takeWhile_append_of_pos hds, List.dropWhile_append_of_pos hds, htake,
    List.append_nil, hempty, Bool.false_eq_true, if_false]

theorem EndsNumber.head {rest : List Char} (h : EndsNumber rest) :
    ∀ c ∈ rest.head?, Text.isAsciiDigit c = false :=
  fun c hc => (h c hc).1

/-- Digits begin with no sign. -/
theorem exists_cons_of_digits {ds : List Char} (hne : ds ≠ [])
    (hds : ∀ c ∈ ds, Text.isAsciiDigit c = true) :
    ∃ c cs, ds = c :: cs ∧ Text.isAsciiDigit c = true ∧ c ≠ '-' ∧ c ≠ '+' := by
  obtain ⟨c, cs, rfl⟩ := List.exists_cons_of_ne_nil hne
  have hc := hds c List.mem_cons_self
  refine ⟨c, cs, rfl, hc, ?_, ?_⟩
  · rintro rfl
    cases hc
  · rintro rfl
    cases hc

/-- The exponent as it is written. -/
def exponentChars : Option (Bool × List Char) → List Char
  | some (negative, ds) => 'e' :: (if negative then '-' :: ds else ds)
  | none => []

theorem unsigned?_chars {n : Numeral} (h : n.WellFormed) {rest : List Char}
    (hrest : EndsNumber rest) :
    unsigned? n.negative (n.whole ++ ((n.fraction.map ('.' :: ·)).getD [] ++
      (exponentChars n.exponent ++ rest))) = some (n, rest) := by
  obtain ⟨negative, whole, fraction, exponent⟩ := n
  obtain ⟨hwholeDigits, hwholeNe, hwholeHead, hfraction, hexponent⟩ := h
  dsimp only at *
  have hzero : (whole.head? == some '0' && decide (1 < whole.length)) = false := by
    by_cases hz : whole.head? = some '0'
    · simp [hwholeHead hz]
    · simp [hz]
  -- what follows the digits is no digit, whether a point, an exponent or the rest
  have hbehind : ∀ c ∈ (exponentChars exponent ++ rest).head?, Text.isAsciiDigit c = false := by
    intro c hc
    cases exponent with
    | none => exact hrest.head c hc
    | some e =>
        obtain rfl := Option.some.inj hc
        rfl
  have hpoint : ∀ c ∈ ((fraction.map ('.' :: ·)).getD [] ++ (exponentChars exponent ++ rest)).head?,
      Text.isAsciiDigit c = false := by
    intro c hc
    cases fraction with
    | none => exact hbehind c hc
    | some ds =>
        obtain rfl := Option.some.inj hc
        rfl
  unfold unsigned?
  simp only [digits?_append hwholeNe hwholeDigits hpoint, hzero, Option.bind_eq_bind,
    Option.bind_some, Bool.false_eq_true, if_false, pure]
  cases fraction with
  | none =>
      cases exponent with
      | none =>
          cases rest with
          | nil => rfl
          | cons c cs =>
              obtain ⟨-, hdot, he, hE⟩ := hrest c rfl
              simp [exponentChars, hdot, he, hE]
      | some e =>
          obtain ⟨minus, ds⟩ := e
          obtain ⟨hne, hds⟩ := hexponent minus ds rfl
          have hread := digits?_append hne hds hrest.head
          obtain ⟨c, cs, rfl, -, hminus, hplus⟩ := exists_cons_of_digits hne hds
          rw [List.cons_append] at hread
          cases minus with
          | true => simp [exponentChars, hread]
          | false => simp [exponentChars, hread, hminus, hplus]
  | some fs =>
      obtain ⟨hne, hfs⟩ := hfraction fs rfl
      have hplaces := digits?_append hne hfs hbehind
      cases exponent with
      | none =>
          rw [exponentChars, List.nil_append] at hplaces
          cases rest with
          | nil =>
              rw [List.append_nil] at hplaces
              simp [exponentChars, hplaces]
          | cons c cs =>
              obtain ⟨-, -, he, hE⟩ := hrest c rfl
              simp [exponentChars, hplaces, he, hE]
      | some e =>
          obtain ⟨minus, ds⟩ := e
          obtain ⟨hne, hds⟩ := hexponent minus ds rfl
          have hread := digits?_append hne hds hrest.head
          obtain ⟨c, cs, rfl, -, hminus, hplus⟩ := exists_cons_of_digits hne hds
          rw [List.cons_append] at hread
          cases minus with
          | true =>
              simp only [exponentChars, if_true, List.cons_append] at hplaces
              simp [exponentChars, hplaces, hread]
          | false =>
              simp only [exponentChars, Bool.false_eq_true, if_false, List.cons_append] at hplaces
              simp [exponentChars, hplaces, hread, hminus, hplus]

/-- A number of the grammar is read as it is written. -/
theorem numeral?_chars {n : Numeral} (h : n.WellFormed) {rest : List Char}
    (hrest : EndsNumber rest) : numeral? (n.chars ++ rest) = some (n, rest) := by
  have hread := unsigned?_chars h hrest
  have hchars : n.chars = (if n.negative then ['-'] else []) ++ (n.whole ++
      ((n.fraction.map ('.' :: ·)).getD [] ++ exponentChars n.exponent)) := by
    obtain ⟨negative, whole, fraction, exponent⟩ := n
    cases fraction with
    | none =>
        cases exponent with
        | none => simp [Numeral.chars, exponentChars]
        | some e => simp [Numeral.chars, exponentChars]
    | some fs =>
        cases exponent with
        | none => simp [Numeral.chars, exponentChars]
        | some e => simp [Numeral.chars, exponentChars]
  cases hsign : n.negative with
  | true =>
      rw [hsign] at hread
      simpa [hchars, hsign, numeral?] using hread
  | false =>
      rw [hsign] at hread
      -- the first character is a digit, so no sign is taken off
      obtain ⟨c, cs, hwhole, -, hminus, -⟩ := exists_cons_of_digits h.whole_ne_nil h.whole_digits
      rw [hwhole] at hread
      simpa [hchars, hsign, numeral?, hwhole, hminus] using hread

end Json
end AskSql
