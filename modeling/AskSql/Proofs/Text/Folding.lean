import AskSql.Text.Blank
import AskSql.Text.Lowercase
import AskSql.Text.Sorted

/-!
# Letters whose case is set aside

Making letters small twice is the same as making them small once, and it turns no letter into a
blank.  A text without capitals stays as it is.  Sorting words loses none and adds none.
-/

namespace AskSql.Text

/-- The number of a capital letter grows by 32, and every other character stays. -/
theorem toNat_toLower (c : Char) :
    c.toLower.toNat = if 65 ≤ c.toNat ∧ c.toNat ≤ 90 then c.toNat + 32 else c.toNat := by
  have hcapital : (c.val ≥ 'A'.val ∧ c.val ≤ 'Z'.val) ↔ 65 ≤ c.toNat ∧ c.toNat ≤ 90 :=
    and_congr UInt32.le_iff_toNat_le UInt32.le_iff_toNat_le
  by_cases h : c.val ≥ 'A'.val ∧ c.val ≤ 'Z'.val
  · have hbounds := hcapital.1 h
    delta Char.toLower
    simp only [h, and_self, dite_true, hbounds, if_true]
    change (c.val + ('a'.val - 'A'.val)).toNat = c.val.toNat + 32
    have hval : c.val.toNat = c.toNat := rfl
    have hshift : ('a'.val - 'A'.val).toNat = 32 := by decide
    rw [UInt32.toNat_add, hshift]
    omega
  · rw [if_neg fun hc => h (hcapital.2 hc)]
    delta Char.toLower
    simp only [h, dite_false]

theorem toLower_toLower (c : Char) : c.toLower.toLower = c.toLower := by
  have h : c.toLower.toLower.toNat = c.toLower.toNat := by
    rw [toNat_toLower c.toLower, toNat_toLower c]
    by_cases hc : 65 ≤ c.toNat ∧ c.toNat ≤ 90
    · rw [if_pos hc, if_neg (by omega)]
    · rw [if_neg hc, if_neg hc]
  exact Char.toNat_inj.1 h

@[simp] theorem lower_lower (s : String) : lower (lower s) = lower s := by
  rw [lower, toList_lower, List.map_map, lower]
  congr 2
  funext c
  exact toLower_toLower c

theorem isAsciiSmall_iff {c : Char} : isAsciiSmall c = true ↔ 97 ≤ c.toNat ∧ c.toNat ≤ 122 := by
  simp only [isAsciiSmall, Bool.and_eq_true, decide_eq_true_eq]
  exact and_congr UInt32.le_iff_toNat_le UInt32.le_iff_toNat_le

theorem isAsciiDigit_iff {c : Char} : isAsciiDigit c = true ↔ 48 ≤ c.toNat ∧ c.toNat ≤ 57 := by
  simp only [isAsciiDigit, Bool.and_eq_true, decide_eq_true_eq]
  exact and_congr UInt32.le_iff_toNat_le UInt32.le_iff_toNat_le

theorem isAsciiCapital_iff {c : Char} : isAsciiCapital c = true ↔ 65 ≤ c.toNat ∧ c.toNat ≤ 90 := by
  simp only [isAsciiCapital, Bool.and_eq_true, decide_eq_true_eq]
  exact and_congr UInt32.le_iff_toNat_le UInt32.le_iff_toNat_le

theorem toLower_eq_self {c : Char} (h : isAsciiCapital c = false) : c.toLower = c := by
  have hcapital : ¬(65 ≤ c.toNat ∧ c.toNat ≤ 90) := fun hc => by
    rw [isAsciiCapital_iff.2 hc] at h
    cases h
  have hnat := toNat_toLower c
  rw [if_neg hcapital] at hnat
  exact Char.toNat_inj.1 hnat

theorem isAsciiCapital_toLower (c : Char) : isAsciiCapital c.toLower = false := by
  rw [Bool.eq_false_iff, ne_eq, isAsciiCapital_iff, toNat_toLower]
  split <;> omega

theorem lower_eq_self {s : String} (h : ∀ c ∈ s.toList, isAsciiCapital c = false) :
    lower s = s := by
  have hmap : s.toList.map Char.toLower = s.toList :=
    (List.map_congr_left fun c hc => toLower_eq_self (h c hc)).trans (List.map_id _)
  rw [lower, hmap, String.ofList_toList]

/-- A text of small letters, digits and the like stays as it is. -/
theorem lowercase_eq_self {s : String}
    (h : ∀ c ∈ s.toList, c.toNat < 0x80 ∧ isAsciiCapital c = false) : lowercase s = s := by
  have hform {before after : List Char} {c : Char} (hascii : c.toNat < 0x80)
      (hsmall : isAsciiCapital c = false) : smallForm before c after = [c] := by
    have hsigma : c ≠ 'Σ' := by rintro rfl; revert hascii; decide
    have hdot : c ≠ 'İ' := by rintro rfl; revert hascii; decide
    simp [smallForm, hsigma, hdot, smallOf, hascii, toLower_eq_self hsmall]
  have hchars (before cs : List Char)
      (hcs : ∀ c ∈ cs, c.toNat < 0x80 ∧ isAsciiCapital c = false) :
      lowercaseChars before cs = cs := by
    induction cs generalizing before with
    | nil => rfl
    | cons c cs ih =>
        obtain ⟨⟨hascii, hsmall⟩, hcs⟩ := List.forall_mem_cons.1 hcs
        rw [lowercaseChars, hform hascii hsmall, ih (c :: before) hcs, List.singleton_append]
  rw [lowercase, hchars [] s.toList h, String.ofList_toList]

theorem lower_append (s t : String) : lower (s ++ t) = lower s ++ lower t := by
  rw [← String.toList_inj, String.toList_append, toList_lower, toList_lower, toList_lower,
    String.toList_append, List.map_append]

/-- A printing character of the ASCII range is no blank. -/
theorem isBlank_eq_false_of_printing {c : Char} (hlow : 33 ≤ c.toNat) (hhigh : c.toNat ≤ 126) :
    isBlank c = false := by
  simp only [isBlank, Bool.or_eq_false_iff, Bool.and_eq_false_iff, decide_eq_false_iff_not,
    beq_eq_false_iff_ne]
  omega

theorem isBlank_toLower (c : Char) : isBlank c.toLower = isBlank c := by
  have hnat := toNat_toLower c
  by_cases h : 65 ≤ c.toNat ∧ c.toNat ≤ 90
  · rw [if_pos h] at hnat
    rw [isBlank_eq_false_of_printing (by omega) (by omega),
      isBlank_eq_false_of_printing (by omega) (by omega)]
  · rw [if_neg h] at hnat
    rw [Char.toNat_inj.1 hnat]

/-- A name consists of blanks whatever the case of its letters. -/
theorem isBlankText_lower (s : String) : isBlankText (lower s) = isBlankText s := by
  simp [isBlankText, toList_lower, List.all_map, Function.comp_def, isBlank_toLower]

theorem isBlankText_eq_of_lower_eq {s t : String} (h : lower s = lower t) :
    isBlankText s = isBlankText t := by
  rw [← isBlankText_lower s, h, isBlankText_lower]

@[simp] theorem mem_sortWords {w : String} {ws : List String} : w ∈ sortWords ws ↔ w ∈ ws := by
  have hfold : ∀ acc, w ∈ ws.foldl (fun acc word => insertWord word acc) acc ↔
      w ∈ acc ∨ w ∈ ws := by
    induction ws with
    | nil => simp
    | cons v vs ih =>
        intro acc
        rw [List.foldl_cons, ih, mem_insertWord, List.mem_cons]
        constructor
        · rintro ((h | h) | h) <;> simp [h]
        · rintro (h | h | h) <;> simp [h]
  simpa [sortWords] using hfold []

end AskSql.Text
