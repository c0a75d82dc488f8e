import AskSql.Proofs.Schema.SurfaceForms
import Mathlib.Data.List.ModifyLast

/-!
# Names with blanks between their words

A name is written as words in one of two ways: with low lines between them, or with a capital at the
start of each.  `Name.spacedForms` are the words of a name as it is written, with blanks between
them, and the same with the last word in the singular and in the plural.

The surface forms of a name are made from its normal form, which has no capitals left.  So the words
that only a capital shows grow together: a name has as many words more than stems as it has capitals
behind a small letter or a digit (`Name.length_words_toWords`), and no surface form has more words
than there are stems (`Name.length_words_le`).  The spaced forms are surface forms exactly if there
is no such capital (`Name.spacedForms_mem_surfaceForms`).
-/

namespace AskSql.Name

open Text

section Humps

variable {before : Char} {cs : List Char} {c : Char} {small : Bool} {name : String}

/-- A capital begins a word behind a small letter or a digit. -/
def isHump (before c : Char) : Bool :=
  isStemChar before && isAsciiCapital c

/-- The number of capitals right behind a small letter or a digit. -/
def humps (name : String) : Nat :=
  adjacent isHump '_' name.toList

theorem isStemChar_of_isAsciiCapital (h : isAsciiCapital c = true) : isStemChar c = false := by
  rw [isAsciiCapital_iff] at h
  rw [Bool.eq_false_iff, ne_eq, isStemChar_iff_toNat]
  omega

/-- A low line alone parts the words of a name. -/
theorem isSeparator_toLower (h : isNameChar c = true) (hne : c ≠ '_') :
    isSeparator c.toLower = false := by
  have hname := isNameChar_toLower h
  refine (isStemChar_iff hname (isAsciiCapital_toLower c)).1 ?_
  have hline : c.toNat ≠ 95 := fun h => hne (Char.toNat_inj.1 h)
  rw [isNameChar_iff_toNat, toNat_toLower] at hname
  rw [isStemChar_iff_toNat, toNat_toLower]
  split at hname <;> split <;> omega

theorem mem_snakeChars (h : c ∈ snakeChars small cs) : c = '_' ∨ ∃ d ∈ cs, c = d.toLower := by
  induction cs generalizing small with
  | nil => cases h
  | cons d cs ih =>
      have hrest {b : Bool} (h : c ∈ snakeChars b cs) :
          c = '_' ∨ ∃ e ∈ d :: cs, c = e.toLower :=
        (ih h).imp id fun ⟨e, he, hc⟩ => ⟨e, List.mem_cons_of_mem d he, hc⟩
      rw [snakeChars] at h
      split at h
      · obtain h | h := List.mem_append.1 h
        · split at h
          · obtain rfl | h := List.mem_cons.1 h
            · exact .inl rfl
            · exact .inr ⟨d, List.mem_cons_self, List.mem_singleton.1 h⟩
          · exact .inr ⟨d, List.mem_cons_self, List.mem_singleton.1 h⟩
        · exact hrest h
      · next hsmall =>
          obtain rfl | h := List.mem_cons.1 h
          · exact .inr ⟨c, List.mem_cons_self, (toLower_eq_self (Bool.eq_false_iff.2 hsmall)).symm⟩
          · exact hrest h

/-- Each capital behind a small letter or a digit begins one piece more. -/
theorem adjacent_snakeChars (hbefore : isNameChar before = true)
    (h : ∀ c ∈ cs, isNameChar c = true) :
    adjacent (beginsPiece isSeparator) before.toLower (snakeChars (isStemChar before) cs) =
      adjacent (beginsPiece isSeparator) before.toLower (cs.map Char.toLower) +
        adjacent isHump before cs := by
  induction cs generalizing before with
  | nil => rfl
  | cons c cs ih =>
      have hc := h c List.mem_cons_self
      have hrest := ih hc fun d hd => h d (List.mem_cons_of_mem c hd)
      rw [snakeChars, List.map_cons, adjacent, adjacent, isHump]
      -- a capital begins a word, unless a separator before it already does
      split
      · next hcapital =>
          have hkept : isSeparator c.toLower = false :=
            isSeparator_toLower hc (by rintro rfl; cases hcapital)
          rw [isStemChar_of_isAsciiCapital hcapital] at hrest
          cases hstem : isStemChar before with
          | true =>
              have hlower : before.toLower = before :=
                toLower_eq_self (isAsciiCapital_of_isStemChar hstem)
              have hopen : isSeparator before = false :=
                (isStemChar_iff hbefore (isAsciiCapital_of_isStemChar hstem)).1 hstem
              have hline : isSeparator '_' = true := rfl
              simp only [if_true, List.cons_append, List.nil_append, adjacent, hrest, hlower,
                beginsPiece, hopen, hline, hkept, hcapital, Bool.false_and, Bool.true_and,
                Bool.not_true, Bool.not_false, Bool.false_eq_true, if_false]
              omega
          | false =>
              simp only [Bool.false_eq_true, if_false, List.cons_append, List.nil_append, adjacent,
                hrest, Bool.false_and]
              omega
      · next hsmall =>
          have hlower : c.toLower = c := toLower_eq_self (Bool.eq_false_iff.2 hsmall)
          rw [hlower] at hrest ⊢
          have hstem : (isAsciiSmall c || isAsciiDigit c) = isStemChar c := rfl
          rw [hstem, adjacent, hrest, Bool.eq_false_iff.2 hsmall, Bool.and_false]
          simp only [Bool.false_eq_true, if_false]
          omega

theorem snakeChars_eq_map (h : adjacent isHump before cs = 0) :
    snakeChars (isStemChar before) cs = cs.map Char.toLower := by
  induction cs generalizing before with
  | nil => rfl
  | cons c cs ih =>
      rw [adjacent, Nat.add_eq_zero_iff] at h
      have hrest := ih h.2
      rw [snakeChars, List.map_cons]
      split
      · next hcapital =>
          have hstem : isStemChar before = false := by
            rw [Bool.eq_false_iff]
            intro hstem
            simp [isHump, hstem, hcapital] at h
          rw [isStemChar_of_isAsciiCapital hcapital] at hrest
          rw [hstem, hrest]
          rfl
      · next hsmall =>
          rw [toLower_eq_self (Bool.eq_false_iff.2 hsmall), ← hrest]
          rfl

/-- Where no capital begins a word, capitals are made small and nothing else. -/
theorem camelToSnake_eq_lower (h : humps name = 0) : camelToSnake name = lower name := by
  have hmap : snakeChars (isStemChar '_') name.toList = name.toList.map Char.toLower :=
    snakeChars_eq_map h
  exact congrArg String.ofList hmap

end Humps

section Spaced

variable {name f : String} {front : List String} {last : String}

/-- The words of a name with blanks between them, with the last word as it is, in the singular and
in the plural. -/
def spacedForms (name : String) : List String :=
  [toWords name, " ".intercalate ((words (toWords name)).modifyLast singular),
    " ".intercalate ((words (toWords name)).modifyLast plural)]

/-- The words of a name are stems. -/
theorem isStem_of_mem_pieces (h : IsIdentifier name) {w : String}
    (hw : w ∈ pieces isSeparator (camelToSnake name)) : IsStem w where
  ne_empty := ne_empty_of_mem_pieces hw
  plain c hc := by
    obtain ⟨hmem, hkept⟩ := mem_of_mem_pieces hw hc
    rw [camelToSnake, String.toList_ofList] at hmem
    obtain rfl | ⟨d, hd, rfl⟩ := mem_snakeChars hmem
    · cases hkept
    · exact (isStemChar_iff (isNameChar_toLower (h d hd)) (isAsciiCapital_toLower d)).2 hkept

/-- A name in small letters is one word. -/
theorem IsSnake.words_eq (h : IsSnake f) : words f = [f] := by
  have hone : words (" ".intercalate [f]) = [f] :=
    words_intercalate fun w hw => List.mem_singleton.1 hw ▸ h
  simpa using hone

theorem words_toWords (h : IsIdentifier name) :
    words (toWords name) = pieces isSeparator (camelToSnake name) :=
  words_intercalate fun _ hw => (isStem_of_mem_pieces h hw).isSnake

/-- A name has a word for each stem and one more for each capital behind a small letter. -/
theorem length_words_toWords (h : IsIdentifier name) :
    (words (toWords name)).length = (stems name).length + humps name := by
  have hline : isSeparator '_' = true := rfl
  have hfront : isNameChar '_' = true := by decide
  have hcount := adjacent_snakeChars hfront h
  have hlower : ('_' : Char).toLower = '_' := by decide
  rw [hlower] at hcount
  rw [words_toWords h, stems, length_pieces hline, length_pieces hline, camelToSnake,
    String.toList_ofList, toList_lower]
  exact hcount

theorem mem_spacedForms_iff (h : IsIdentifier name)
    (hwords : words (toWords name) = front ++ [last]) :
    f ∈ spacedForms name ↔
      ∃ v, (v = last ∨ v = singular last ∨ v = plural last) ∧
        f = " ".intercalate (front ++ [v]) := by
  have hjoined : toWords name = " ".intercalate (front ++ [last]) := by
    rw [← hwords, words_toWords h, toWords]
  rw [spacedForms, hwords, List.modifyLast_concat, List.modifyLast_concat, hjoined]
  simp only [List.mem_cons, List.not_mem_nil, or_false]
  constructor
  · rintro (rfl | rfl | rfl)
    · exact ⟨_, .inl rfl, rfl⟩
    · exact ⟨_, .inr (.inl rfl), rfl⟩
    · exact ⟨_, .inr (.inr rfl), rfl⟩
  · rintro ⟨v, rfl | rfl | rfl, rfl⟩
    · exact .inl rfl
    · exact .inr (.inl rfl)
    · exact .inr (.inr rfl)

/-- A spaced form has as many words as the name. -/
theorem length_words_of_mem_spacedForms (h : IsIdentifier name) (hf : f ∈ spacedForms name)
    (hne : words (toWords name) ≠ []) : (words f).length = (words (toWords name)).length := by
  obtain ⟨front, last, hwords⟩ := (List.eq_nil_or_concat' _).resolve_left hne
  have hstem {w : String} (hw : w ∈ front ++ [last]) : IsStem w :=
    isStem_of_mem_pieces h (by rwa [← words_toWords h, hwords])
  have hlast := hstem (List.mem_append_right front List.mem_cons_self)
  obtain ⟨v, hv, rfl⟩ := (mem_spacedForms_iff h hwords).1 hf
  have hsnake : ∀ w ∈ front ++ [v], IsSnake w := by
    intro w hw
    obtain hw | hw := List.mem_append.1 hw
    · exact (hstem (List.mem_append_left _ hw)).isSnake
    · obtain rfl := List.mem_singleton.1 hw
      obtain rfl | rfl | rfl := hv
      · exact hlast.isSnake
      · exact hlast.singular.isSnake
      · exact hlast.plural.isSnake
  rw [words_intercalate hsnake, hwords, List.length_append, List.length_append]
  rfl

/-- No surface form has more words than the name has stems. -/
theorem length_words_le (h : IsIdentifier name) (hne : stems name ≠ [])
    (hf : f ∈ surfaceForms name) : (words f).length ≤ (stems name).length := by
  obtain ⟨front, last, hstems⟩ := (List.eq_nil_or_concat' _).resolve_left hne
  have hlast := isStem_last h hstems
  have hone {g : String} (hg : IsSnake g) : (words g).length ≤ (stems name).length := by
    rw [hg.words_eq]
    exact List.length_pos_of_ne_nil hne
  have hspaced {v : String} (hv : IsStem v) :
      (words (" ".intercalate (front ++ [v]))).length ≤ (stems name).length := by
    rw [words_intercalate (isSnake_of_mem_concat h hstems hv), hstems, List.length_append,
      List.length_append]
    exact Nat.le_refl _
  have hlined {v : String} (hv : IsStem v) :
      (words ("_".intercalate (front ++ [v]))).length ≤ (stems name).length :=
    hone (isSnake_intercalate (isSnake_of_mem_concat h hstems hv) (by simp))
  obtain rfl | rfl | ⟨v, hv, hjoined⟩ := (mem_surfaceForms_iff h hstems).1 hf
  · refine hone (isSnake_lower h fun hempty => ?_)
    rw [stems, hempty] at hne
    exact hne rfl
  · exact hspaced hlast
  · have hstem : IsStem v := by
      obtain rfl | rfl := hv
      · exact hlast.singular
      · exact hlast.plural
    obtain rfl | rfl := hjoined
    · exact hlined hstem
    · exact hspaced hstem

/-- The words of the normal form, with the last one in the singular or the plural, are forms. -/
theorem mem_surfaceForms_of_lower (h : IsIdentifier name) (hne : stems name ≠ [])
    (hf : f ∈ spacedForms (lower name)) : f ∈ surfaceForms name := by
  obtain ⟨front, last, hstems⟩ := (List.eq_nil_or_concat' _).resolve_left hne
  have hwords : words (toWords (lower name)) = front ++ [last] := by
    rw [words_toWords (isIdentifier_lower h), camelToSnake_lower, ← hstems, stems]
  obtain ⟨v, hv, rfl⟩ := (mem_spacedForms_iff (isIdentifier_lower h) hwords).1 hf
  rw [mem_surfaceForms_iff h hstems]
  obtain rfl | hv := hv
  · exact .inr (.inl rfl)
  · exact .inr (.inr ⟨v, hv, .inr rfl⟩)

/-- A name with a letter or a digit has a stem. -/
theorem stems_ne_nil (h : IsIdentifier name) (hword : ∃ c ∈ name.toList, c ≠ '_') :
    stems name ≠ [] := by
  obtain ⟨c, hc, hne⟩ := hword
  refine pieces_ne_nil (c := c.toLower) ?_ (isSeparator_toLower (h c hc) hne)
  rw [toList_lower]
  exact List.mem_map_of_mem hc

theorem spacedForms_lower (h : humps name = 0) : spacedForms (lower name) = spacedForms name := by
  have hwords : toWords (lower name) = toWords name := by
    rw [toWords, camelToSnake_lower, toWords, camelToSnake_eq_lower h]
  rw [spacedForms, hwords, spacedForms]

/-- The spaced forms of a name with a letter or a digit are surface forms exactly if no capital
stands behind a small letter or a digit, and those of its normal form always are. -/
theorem spacedForms_mem_surfaceForms (h : IsIdentifier name) (hword : ∃ c ∈ name.toList, c ≠ '_') :
    (∀ f ∈ spacedForms name, f ∈ surfaceForms name ↔ humps name = 0) ∧
      ∀ f ∈ spacedForms (lower name), f ∈ surfaceForms name := by
  have hne := stems_ne_nil h hword
  refine ⟨fun f hf => ⟨fun hform => ?_, fun hzero => ?_⟩, fun f => mem_surfaceForms_of_lower h hne⟩
  · have hcount := length_words_toWords h
    have hpos := List.length_pos_of_ne_nil hne
    have hsome : words (toWords name) ≠ [] := List.ne_nil_of_length_pos (by omega)
    have hwords := length_words_of_mem_spacedForms h hf hsome
    have hmost := length_words_le h hne hform
    omega
  · rw [← spacedForms_lower hzero] at hf
    exact mem_surfaceForms_of_lower h hne hf

/-- The order items are spoken of in the singular. -/
theorem spacedForms_mem_surfaceForms_orderItems :
    IsIdentifier "order_Items" ∧ (∃ c ∈ "order_Items".toList, c ≠ '_') ∧
      "order item" ∈ spacedForms "order_Items" ∧ "order item" ∈ surfaceForms "order_Items" := by
  have hname : IsIdentifier "order_Items" := by decide
  have hword : ∃ c ∈ "order_Items".toList, c ≠ '_' := ⟨'o', by decide, by decide⟩
  have hform : "order item" ∈ spacedForms "order_Items" := by decide +kernel
  exact ⟨hname, hword, hform, ((spacedForms_mem_surfaceForms hname hword).1 _ hform).2 (by decide)⟩

/-- No form of a unit price in camel case has its two words apart. -/
theorem unitPrice_not_mem_surfaceForms :
    IsIdentifier "unitPrice" ∧
      spacedForms "unitPrice" = ["unit price", "unit price", "unit prices"] ∧
      ∀ f ∈ spacedForms "unitPrice", f ∉ surfaceForms "unitPrice" := by
  decide +kernel

end Spaced

end AskSql.Name
