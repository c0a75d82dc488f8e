import AskSql.Proofs.Text.Folding
import AskSql.Schema.Name

/-!
# Stems of names, and their singular and plural

A name of letters, digits and low lines consists of stems, words of small letters and digits.  The
singular and the plural of a stem are stems again.  The plural of several stems with low lines
between them is the one with the last stem in the plural (`Name.plural_append`), for the endings
that decide about it hold no low line.  Only the stem `y` alone has no letter in front of its end.
-/

namespace AskSql

open Text

namespace Name

/-! ### Stems -/

/-- A small letter or a digit. -/
def isStemChar (c : Char) : Bool :=
  isAsciiSmall c || isAsciiDigit c

/-- A letter or a digit of the ASCII range, or a low line. -/
def isNameChar (c : Char) : Bool :=
  isAsciiCapital c || isStemChar c || c == '_'

/-- Letters, digits and low lines of the ASCII range. -/
def IsIdentifier (name : String) : Prop :=
  ∀ c ∈ name.toList, isNameChar c = true

instance (name : String) : Decidable (IsIdentifier name) :=
  decidable_of_iff (name.toList.all isNameChar = true) List.all_eq_true

/-- An identifier in small letters, with something in it. -/
structure IsSnake (w : String) : Prop where
  ne_empty : w ≠ ""
  identifier : IsIdentifier w
  small : ∀ c ∈ w.toList, isAsciiCapital c = false

/-- A word of a name: small letters and digits. -/
structure IsStem (w : String) : Prop where
  ne_empty : w ≠ ""
  plain : ∀ c ∈ w.toList, isStemChar c = true

theorem isStem_iff (w : String) :
    (!w.toList.isEmpty && w.toList.all isStemChar) = true ↔ IsStem w := by
  rw [Bool.and_eq_true, Bool.not_eq_true', List.isEmpty_eq_false_iff, List.all_eq_true]
  exact ⟨fun h => ⟨by simpa using h.1, h.2⟩, fun h => ⟨by simpa using h.ne_empty, h.plain⟩⟩

instance (w : String) : Decidable (IsStem w) :=
  decidable_of_iff _ (isStem_iff w)

section Characters

variable {c : Char} {w : String}

theorem isStemChar_iff_toNat : isStemChar c = true ↔
    97 ≤ c.toNat ∧ c.toNat ≤ 122 ∨ 48 ≤ c.toNat ∧ c.toNat ≤ 57 := by
  rw [isStemChar, Bool.or_eq_true, isAsciiSmall_iff, isAsciiDigit_iff]

theorem isNameChar_iff_toNat : isNameChar c = true ↔
    (65 ≤ c.toNat ∧ c.toNat ≤ 90 ∨
      (97 ≤ c.toNat ∧ c.toNat ≤ 122 ∨ 48 ≤ c.toNat ∧ c.toNat ≤ 57)) ∨ c.toNat = 95 := by
  rw [isNameChar, Bool.or_eq_true, Bool.or_eq_true, isAsciiCapital_iff, isStemChar_iff_toNat,
    beq_iff_eq, ← Char.toNat_inj]
  rfl

theorem isNameChar_of_isStemChar (h : isStemChar c = true) : isNameChar c = true := by
  rw [isNameChar, h, Bool.or_true, Bool.true_or]

theorem isAsciiCapital_of_isStemChar (h : isStemChar c = true) : isAsciiCapital c = false := by
  rw [isStemChar_iff_toNat] at h
  rw [Bool.eq_false_iff, ne_eq, isAsciiCapital_iff]
  omega

theorem isBlank_of_isNameChar (h : isNameChar c = true) : isBlank c = false := by
  rw [isNameChar_iff_toNat] at h
  exact isBlank_eq_false_of_printing (by omega) (by omega)

theorem isNameChar_toLower (h : isNameChar c = true) : isNameChar c.toLower = true := by
  rw [isNameChar_iff_toNat] at h
  rw [isNameChar_iff_toNat, toNat_toLower]
  split <;> omega

theorem ne_of_isNameChar {d : Char} (h : isNameChar c = true) (hd : isNameChar d = false) :
    c ≠ d := by
  rintro rfl
  rw [h] at hd
  cases hd

/-- The stems of a name lie between the low lines. -/
theorem isStemChar_iff (h : isNameChar c = true) (hsmall : isAsciiCapital c = false) :
    isStemChar c = true ↔ isSeparator c = false := by
  have hblank := isBlank_of_isNameChar h
  have hhyphen : c ≠ '-' := ne_of_isNameChar h (by decide)
  rw [isNameChar, hsmall, Bool.false_or, Bool.or_eq_true, beq_iff_eq] at h
  have hline : isSeparator c = false ↔ c ≠ '_' := by
    simp [isSeparator, hblank, hhyphen]
  rw [hline]
  constructor
  · rintro hstem rfl
    cases hstem
  · exact h.resolve_right

theorem IsStem.isSnake (h : IsStem w) : IsSnake w where
  ne_empty := h.ne_empty
  identifier c hc := isNameChar_of_isStemChar (h.plain c hc)
  small c hc := isAsciiCapital_of_isStemChar (h.plain c hc)

theorem IsSnake.lower_eq (h : IsSnake w) : lower w = w :=
  lower_eq_self h.small

end Characters

/-! ### Singular and plural -/

section Inflection

variable {w e v : String} {n : Nat} {c : Char}

theorem toList_dropEnd (w : String) (n : Nat) :
    (dropEnd w n).toList = w.toList.take (w.toList.length - n) :=
  String.toList_ofList

theorem mem_of_mem_dropEnd (h : c ∈ (dropEnd w n).toList) : c ∈ w.toList := by
  rw [toList_dropEnd] at h
  exact List.mem_of_mem_take h

theorem IsStem.dropEnd (h : IsStem w) (hn : n < w.toList.length) : IsStem (dropEnd w n) where
  ne_empty hempty := by
    have hnil : (Name.dropEnd w n).toList.length = 0 := by rw [hempty]; rfl
    rw [toList_dropEnd, List.length_take] at hnil
    omega
  plain c hc := h.plain c (mem_of_mem_dropEnd hc)

theorem IsStem.append (hv : ∀ c ∈ v.toList, isStemChar c = true) (he : IsStem e) :
    IsStem (v ++ e) where
  ne_empty h := he.ne_empty (String.append_eq_empty_iff.1 h).2
  plain c hc := by
    rw [String.toList_append, List.mem_append] at hc
    exact hc.elim (hv c) (he.plain c)

theorem length_le_of_endsIn (h : endsIn w e = true) : e.toList.length ≤ w.toList.length :=
  (List.isSuffixOf_iff_suffix.1 h).length_le

theorem IsStem.singular (h : IsStem w) : IsStem (singular w) := by
  unfold Name.singular
  rw [h.isSnake.lower_eq]
  dsimp only
  split
  · exact .append (fun c hc => h.plain c (mem_of_mem_dropEnd hc)) (by decide)
  · split
    · next hsibilant =>
        obtain ⟨e, he, hends⟩ := List.any_eq_true.1 hsibilant
        have hlong : ∀ e ∈ sibilantPlurals, 2 < e.toList.length := by decide
        have hlength := length_le_of_endsIn (Bool.and_eq_true_iff.1 hends).2
        exact h.dropEnd (Nat.lt_of_lt_of_le (hlong e he) hlength)
    · split
      · next hs =>
          simp only [Bool.and_eq_true, decide_eq_true_eq] at hs
          obtain ⟨⟨⟨hsize, hends⟩, -⟩, -⟩ := hs
          refine h.dropEnd (Nat.lt_of_le_of_ne (length_le_of_endsIn hends) fun hone => ?_)
          -- a letter alone is too short
          have hw := (List.isSuffixOf_iff_suffix.1 hends).eq_of_length hone
          rw [String.toList_inj] at hw
          rw [← hw] at hsize
          exact absurd hsize (by decide)
      · exact h

theorem plural_of_y {before : Char} {rest : List Char}
    (h : (lower w).toList.reverse = 'y' :: before :: rest) :
    plural w = if isVowel before then lower w ++ "s" else dropEnd (lower w) 1 ++ "ies" := by
  unfold plural
  simp only [h]

theorem plural_of_not_y (h : ∀ before rest, (lower w).toList.reverse ≠ 'y' :: before :: rest) :
    plural w =
      if ["s", "x", "ch", "sh", "z"].any (endsIn (lower w)) then lower w ++ "es"
      else lower w ++ "s" := by
  unfold plural
  dsimp only
  split
  · next before rest heq => exact absurd heq (h before rest)
  · rfl

theorem IsStem.plural (h : IsStem w) : IsStem (plural w) := by
  by_cases hy : ∃ before rest, (lower w).toList.reverse = 'y' :: before :: rest
  · obtain ⟨before, rest, heq⟩ := hy
    rw [plural_of_y heq, h.isSnake.lower_eq]
    split
    · exact .append h.plain (by decide)
    · exact .append (fun c hc => h.plain c (mem_of_mem_dropEnd hc)) (by decide)
  · rw [plural_of_not_y (by simpa using hy), h.isSnake.lower_eq]
    split
    · exact .append h.plain (by decide)
    · exact .append h.plain (by decide)

/-- An ending without a low line is told by what stands behind the last low line. -/
theorem endsIn_append {front : String} (he : '_' ∉ e.toList) :
    endsIn (front ++ "_" ++ w) e = endsIn w e := by
  have hchars : (front ++ "_" ++ w).toList = front.toList ++ '_' :: w.toList := by
    simp
  rw [Bool.eq_iff_iff, endsIn, endsIn, List.isSuffixOf_iff_suffix, List.isSuffixOf_iff_suffix,
    hchars]
  constructor
  · -- of two endings of one text, one is an ending of the other
    intro h
    rcases List.suffix_or_suffix_of_suffix h (List.suffix_append front.toList _) with h | h
    · obtain heq | h := List.suffix_cons_iff.1 h
      · exact absurd (heq ▸ List.mem_cons_self) he
      · exact h
    · exact absurd (h.subset List.mem_cons_self) he
  · exact fun h => h.trans ((List.suffix_cons _ _).trans (List.suffix_append _ _))

theorem dropEnd_append {front : String} (h : n ≤ w.toList.length) :
    dropEnd (front ++ w) n = front ++ dropEnd w n := by
  rw [← String.toList_inj, toList_dropEnd, String.toList_append, String.toList_append,
    toList_dropEnd, List.length_append, Nat.add_sub_assoc h, List.take_length_add_append]

theorem any_endsIn_append {front : String} :
    ["s", "x", "ch", "sh", "z"].any (endsIn (front ++ "_" ++ w)) =
      ["s", "x", "ch", "sh", "z"].any (endsIn w) := by
  simp only [List.any_cons, List.any_nil, endsIn_append (e := "s") (by decide),
    endsIn_append (e := "x") (by decide), endsIn_append (e := "ch") (by decide),
    endsIn_append (e := "sh") (by decide), endsIn_append (e := "z") (by decide)]

theorem reverse_append_stem (front w : String) :
    (front ++ "_" ++ w).toList.reverse = w.toList.reverse ++ '_' :: front.toList.reverse := by
  simp

/-- Where something more than `y` stands at the end, a letter in front of `y` is one of it. -/
theorem reverse_append_ne {front : String} (hne : w ≠ "") (hy : w ≠ "y")
    (hno : ∀ before rest, w.toList.reverse ≠ 'y' :: before :: rest) (before : Char)
    (rest : List Char) : (front ++ "_" ++ w).toList.reverse ≠ 'y' :: before :: rest := by
  rw [reverse_append_stem]
  intro heq
  cases hrev : w.toList.reverse with
  | nil => exact hne (by simpa using hrev)
  | cons c cs =>
      rw [hrev] at heq
      obtain ⟨rfl, hcs⟩ := List.cons.inj heq
      cases cs with
      | nil => exact hy (by rw [← String.toList_inj, ← List.reverse_reverse w.toList, hrev]; rfl)
      | cons d ds => exact hno d ds hrev

/-- The plural of a name of several stems is that of its last one, unless that is `y`. -/
theorem plural_append {front : String} (hfront : lower front = front) (hw : IsStem w)
    (hy : w ≠ "y") : plural (front ++ "_" ++ w) = front ++ "_" ++ plural w := by
  have hlower : lower (front ++ "_" ++ w) = front ++ "_" ++ w := by
    rw [lower_append, lower_append, hfront, hw.isSnake.lower_eq]
    rfl
  -- a `y` at the end is treated by the letter before it
  by_cases hends : ∃ before rest, w.toList.reverse = 'y' :: before :: rest
  · obtain ⟨before, rest, heq⟩ := hends
    have hlength : 1 ≤ w.toList.length := by
      rw [← List.length_reverse, heq]
      exact Nat.succ_pos _
    rw [plural_of_y (w := w) (by rw [hw.isSnake.lower_eq, heq]),
      plural_of_y (by rw [hlower, reverse_append_stem, heq]; rfl), hlower, hw.isSnake.lower_eq,
      dropEnd_append hlength]
    split <;> rw [String.append_assoc]
  · have hno : ∀ before rest, w.toList.reverse ≠ 'y' :: before :: rest := by simpa using hends
    have hall : ∀ before rest, (lower (front ++ "_" ++ w)).toList.reverse ≠
        'y' :: before :: rest := by
      rw [hlower]
      exact reverse_append_ne hw.ne_empty hy hno
    rw [plural_of_not_y hall, plural_of_not_y (w := w) (by rwa [hw.isSnake.lower_eq]),
      hlower, hw.isSnake.lower_eq, any_endsIn_append]
    split <;> rw [String.append_assoc]

end Inflection

end Name

end AskSql
