import AskSql.Proofs.Decimal.Notation
import AskSql.Proofs.Render.Clauses
import AskSql.Render.Statement

/-!
# Quoting

Whatever stands in a name or in a text, between its marks it is one closed word that divides no
statement, and nothing of it is lost: a quoted name can be told from what follows it
(`quoteName_append_unique`), so a reference gives back its table and its column
(`reference_unique`).  Numbers need no marks.
-/

namespace AskSql

open Words

/-- A text that is one word and divides no statement. -/
def IsWord (s : String) : Prop :=
  Closed false s.toList ∧ IsOrdinary s.toList

theorem isWord_of_plain {s : String} (h : s.toList.all isPlain = true)
    (hordinary : IsOrdinary s.toList) : IsWord s :=
  ⟨.of_plain h, hordinary⟩

/-! ### Numbers -/

theorem isPlain_of_isDigit {c : Char} (h : c.isDigit = true) : isPlain c = true := by
  have hne : ∀ x : Char, x.isDigit = false → c ≠ x := by
    rintro x hx rfl
    rw [hx] at h
    cases h
  have hmarks : c ≠ '\'' ∧ c ≠ '"' ∧ c ≠ '\x60' := ⟨hne _ rfl, hne _ rfl, hne _ rfl⟩
  have hothers : c ≠ '(' ∧ c ≠ ')' ∧ c ≠ ' ' ∧ c ≠ '\n' :=
    ⟨hne _ rfl, hne _ rfl, hne _ rfl, hne _ rfl⟩
  simp [isPlain, isMark, isGap, hmarks, hothers]

theorem isUpper_of_isDigit {c : Char} (h : c.isDigit = true) : c.isUpper = false := by
  delta Char.isDigit at h
  delta Char.isUpper
  simp only [Bool.and_eq_true, decide_eq_true_eq, decide_eq_false_iff_not] at h ⊢
  rintro ⟨hcapital_le, -⟩
  have hlow := UInt32.le_iff_toNat_le.1 h.2
  have hhigh := UInt32.le_iff_toNat_le.1 hcapital_le
  have hnine : ('9'.val).toNat = 57 := rfl
  have hcapital : ('A'.val).toNat = 65 := rfl
  omega

theorem exists_mem_digits (n : Nat) : ∃ c ∈ Nat.toDigits 10 n, c.isDigit = true := by
  obtain ⟨c, hc⟩ := List.exists_mem_of_ne_nil _ (Nat.toDigits_ne_nil (n := n) (b := 10))
  exact ⟨c, hc, isDigit_of_mem_digits hc⟩

theorem isWord_nat (n : Nat) : IsWord (toString n) := by
  obtain ⟨c, hc, hdigit⟩ := exists_mem_digits n
  apply isWord_of_plain
  · rw [toList_toString, List.all_eq_true]
    exact fun c hc => isPlain_of_isDigit (isDigit_of_mem_digits hc)
  · rw [toList_toString]
    exact isOrdinary_of_mem hc (isUpper_of_isDigit hdigit)

theorem isWord_int (n : Int) : IsWord (toString n) := by
  rw [Int.toString_eq_repr, Int.repr_eq_if]
  by_cases hn : 0 ≤ n
  · rw [if_pos hn]
    exact isWord_nat n.toNat
  · rw [if_neg hn]
    obtain ⟨hclosed, -⟩ := isWord_nat (-n).toNat
    refine ⟨?_, isOrdinary_of_mem (c := '-') (by simp) rfl⟩
    rw [String.toList_append]
    exact .cons rfl hclosed

namespace Decimal

theorem isWord_positional (x : Float) : IsWord (positional x) := by
  unfold positional
  by_cases hfinite : x.isFinite = true
  · obtain ⟨hdigits, hne⟩ := spread_digits (shortestOf .upward x)
    rw [List.forall_mem_append] at hdigits
    obtain ⟨c, hc⟩ := List.exists_mem_of_ne_nil _ hne
    simp only [hfinite, if_true]
    apply isWord_of_plain
    · rw [String.toList_ofList, List.all_eq_true]
      simp only [List.forall_mem_append]
      refine ⟨⟨?_, fun c hc => isPlain_of_isDigit (hdigits.1 c hc)⟩, ?_⟩
      · rw [← List.all_eq_true]
        cases isNegative x <;> decide
      · cases hfraction : (shortestOf .upward x).spread.2.isEmpty with
        | true => simp
        | false =>
            simp only [Bool.false_eq_true, if_false, List.forall_mem_cons]
            exact ⟨rfl, fun c hc => isPlain_of_isDigit (hdigits.2 c hc)⟩
    · refine isOrdinary_of_mem (c := c) ?_ (isUpper_of_isDigit (hdigits.1 c hc))
      rw [String.toList_ofList]
      simp [hc]
  · have hword : ∀ s ∈ ["NaN", "-inf", "inf"],
        s.toList.all isPlain = true ∧ IsOrdinary s.toList := by
      decide
    have hmem : wordFor x ∈ ["NaN", "-inf", "inf"] := by
      unfold wordFor
      cases x.isNaN <;> cases isNegative x <;> simp
    simp only [hfinite]
    obtain ⟨hplain, hordinary⟩ := hword _ hmem
    exact isWord_of_plain hplain hordinary

end Decimal

namespace Dialect

variable (d : Dialect)

/-! ### Names and texts -/

theorem isMark_nameMark : isMark d.nameMark = true := by
  cases d <;> rfl

theorem toList_quoteName (s : String) :
    (d.quoteName s).toList =
      if s = "*" then ['*'] else d.nameMark :: (doubled d.nameMark s.toList ++ [d.nameMark]) := by
  unfold quoteName
  by_cases hs : s = "*"
  · simp only [hs, beq_self_eq_true, if_true]
    rfl
  · have hstar : (s == "*") = false := by simpa using hs
    simp only [hstar, hs, Bool.false_eq_true, if_false, String.toList_ofList]
    rfl

theorem isWord_quoteName (s : String) : IsWord (d.quoteName s) := by
  unfold IsWord
  rw [toList_quoteName]
  by_cases hs : s = "*"
  · rw [if_pos hs]
    exact ⟨.plain rfl, by decide⟩
  · rw [if_neg hs]
    have hclosed : Closed false (d.nameMark :: (doubled d.nameMark s.toList ++ [d.nameMark])) :=
      .doubled d.isMark_nameMark [] s.toList (by simp)
    refine ⟨hclosed, isOrdinary_of_mem (c := d.nameMark) (by simp) ?_⟩
    cases d <;> rfl

/-- Two kinds of characters may be doubled in either order. -/
theorem doubled_comm {m k : Char} (h : m ≠ k) (cs : List Char) :
    doubled m (doubled k cs) = doubled k (doubled m cs) := by
  induction cs with
  | nil => rfl
  | cons c cs ih =>
      by_cases hm : c = m
      · have hk : c ≠ k := fun hk => h (hm.symm.trans hk)
        simp [doubled, hm, ih, h]
      · by_cases hk : c = k
        · simp [doubled, hk, ih, Ne.symm h]
        · simp [doubled, hm, hk, ih]

theorem isWord_quoteText (s : String) : IsWord (d.quoteText s) := by
  have hbody : ∃ cs, (d.quoteText s).toList = '\'' :: (doubled '\'' cs ++ ['\'']) := by
    unfold quoteText
    by_cases hd : d = mySql
    · refine ⟨doubled '\\' s.toList, ?_⟩
      -- the backslashes are doubled after the marks, but the order does not matter
      simp only [hd, if_true, String.toList_ofList, List.cons_append]
      rw [doubled_comm (by decide)]
    · refine ⟨s.toList, ?_⟩
      simp only [hd, if_false, String.toList_ofList, List.cons_append]
  obtain ⟨cs, hcs⟩ := hbody
  unfold IsWord
  rw [hcs]
  have hclosed : Closed false ('\'' :: (doubled '\'' cs ++ ['\''])) :=
    .doubled rfl [] cs (by simp)
  exact ⟨hclosed, isOrdinary_of_mem (c := '\'') (by simp) rfl⟩

/-- The end of a text with doubled marks shows if no mark follows it. -/
theorem doubled_append_unique {m : Char} {cs ds rest rest' : List Char}
    (hrest : rest.head? ≠ some m) (hrest' : rest'.head? ≠ some m)
    (h : doubled m cs ++ m :: rest = doubled m ds ++ m :: rest') : cs = ds ∧ rest = rest' := by
  induction cs generalizing ds with
  | nil =>
      cases ds with
      | nil => exact ⟨rfl, (List.cons.inj h).2⟩
      | cons c ds =>
          by_cases hc : c = m
          · -- the closing mark on the left would be the first of two on the right
            simp only [doubled, hc, beq_self_eq_true, if_true, List.nil_append, List.cons_append,
              List.cons.injEq, true_and] at h
            rw [h] at hrest
            exact absurd rfl hrest
          · simp [doubled, hc, Ne.symm hc] at h
  | cons c cs ih =>
      cases ds with
      | nil =>
          by_cases hc : c = m
          · simp only [doubled, hc, beq_self_eq_true, if_true, List.nil_append, List.cons_append,
              List.cons.injEq, true_and] at h
            rw [← h] at hrest'
            exact absurd rfl hrest'
          · simp [doubled, hc] at h
      | cons b ds =>
          -- a character on the left is one on the right, whether it is the mark or not
          have htails : c = b ∧ doubled m cs ++ m :: rest = doubled m ds ++ m :: rest' := by
            by_cases hc : c = m
            · by_cases hb : b = m
              · simp only [doubled, hc, hb, beq_self_eq_true, if_true, List.cons_append,
                  List.cons.injEq, true_and] at h
                exact ⟨hc.trans hb.symm, h⟩
              · simp [doubled, hc, hb, Ne.symm hb] at h
            · by_cases hb : b = m
              · simp [doubled, hc, hb] at h
              · simpa [doubled, hc, hb] using h
          obtain ⟨rfl, htail⟩ := htails
          obtain ⟨hcs, hrests⟩ := ih htail
          exact ⟨by rw [hcs], hrests⟩

/-- A quoted name can be told from what follows it, unless this begins with another mark. -/
theorem quoteName_append_unique {s t : String} {rest rest' : List Char}
    (hrest : rest.head? ≠ some d.nameMark) (hrest' : rest'.head? ≠ some d.nameMark)
    (h : (d.quoteName s).toList ++ rest = (d.quoteName t).toList ++ rest') :
    s = t ∧ rest = rest' := by
  have hstar : d.nameMark ≠ '*' := by
    cases d <;> decide
  rw [toList_quoteName, toList_quoteName] at h
  -- a star stands without marks, and no mark is a star
  by_cases hs : s = "*"
  · by_cases ht : t = "*"
    · rw [if_pos hs, if_pos ht] at h
      exact ⟨hs.trans ht.symm, (List.cons.inj h).2⟩
    · rw [if_pos hs, if_neg ht] at h
      exact absurd (List.cons.inj h).1.symm hstar
  · by_cases ht : t = "*"
    · rw [if_neg hs, if_pos ht] at h
      exact absurd (List.cons.inj h).1 hstar
    · rw [if_neg hs, if_neg ht] at h
      simp only [List.cons_append, List.append_assoc, List.nil_append, List.cons.injEq,
        true_and] at h
      obtain ⟨hcs, hrests⟩ := doubled_append_unique hrest hrest' h
      exact ⟨String.toList_inj.1 hcs, hrests⟩

theorem quoteName_unique {s t : String} (h : (d.quoteName s).toList = (d.quoteName t).toList) :
    s = t := by
  have hempty : ([] : List Char).head? ≠ some d.nameMark := by simp
  exact (d.quoteName_append_unique hempty hempty (by simpa using h)).1

/-! ### References -/

theorem toList_reference (r : Reference) :
    (d.reference r).toList =
      (d.quoteName r.table).toList ++ '.' :: (d.quoteName r.column).toList := by
  simp [reference]

theorem isWord_reference (r : Reference) : IsWord (d.reference r) := by
  unfold IsWord
  rw [toList_reference]
  have htable := (d.isWord_quoteName r.table).1
  have hcolumn := (d.isWord_quoteName r.column).1
  exact ⟨.append htable (.cons rfl hcolumn), isOrdinary_of_mem (c := '.') (by simp) rfl⟩

/-- A reference gives back its table and its column. -/
theorem reference_unique {r s : Reference}
    (h : (d.reference r).toList = (d.reference s).toList) : r.unlabelled = s.unlabelled := by
  -- the point behind the first name is not a mark, so it cannot be taken for a part of the name
  have hpoint : ('.' :: (d.quoteName r.column).toList).head? ≠ some d.nameMark ∧
      ('.' :: (d.quoteName s.column).toList).head? ≠ some d.nameMark := by
    cases d <;> simp [nameMark]
  rw [toList_reference, toList_reference] at h
  obtain ⟨htable, hrest⟩ := d.quoteName_append_unique hpoint.1 hpoint.2 h
  have hcolumn := d.quoteName_unique (List.cons.inj hrest).2
  rw [Reference.unlabelled, Reference.unlabelled, htable, hcolumn]

/-! ### Literals -/

theorem isWord_literal (v : Literal) : IsWord (v.sql d) := by
  cases v with
  | integer n => exact isWord_int n
  | float x => exact Decimal.isWord_positional x
  | text s => exact d.isWord_quoteText s
  | date s => exact d.isWord_quoteText s
  | boolean b =>
      have hwords : ∀ s ∈ ["1", "0", "TRUE", "FALSE"],
          s.toList.all isPlain = true ∧ IsOrdinary s.toList := by
        decide
      have hmem : d.boolean b ∈ ["1", "0", "TRUE", "FALSE"] := by
        cases d <;> cases b <;> decide
      obtain ⟨hplain, hordinary⟩ := hwords _ hmem
      exact isWord_of_plain hplain hordinary

end Dialect

end AskSql
