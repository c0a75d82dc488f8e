import AskSql.Proofs.Schema.Inflection
import AskSql.Proofs.Schema.Lookup
import AskSql.Proofs.Text.Pieces

/-!
# Tables that are found by their forms

The forms of a name are the name itself, its stems with blanks between them, and the same stems with
the last one in the singular and in the plural (`Name.mem_surfaceForms_iff`).

A table is looked for by a word with low lines in place of its blanks, and by the singular and the
plural of that as a whole.  What a form becomes that way is a form again, or its plural is one
(`Name.sought_mem_surfaceForms`): the plural of the whole is the one with the last stem in the
plural, unless the last stem is `y`, and that is its own singular.  So each form finds its table by
one way or another (`Schema.findTable?_forms`).
-/

namespace AskSql

open Text

namespace Name

/-! ### Names as words -/

section Joined

variable {ws front : List String} {v f name : String}

theorem between?_eq_none {opening closing : Char} {cs : List Char}
    (h : ∀ c ∈ cs.head?, c ≠ opening) : between? opening closing cs = none := by
  cases cs with
  | nil => rfl
  | cons c cs => simp [between?, h c rfl]

/-- A name that begins and ends like an identifier has nothing around it. -/
theorem isBare_of_ends (hhead : ∀ c ∈ name.toList.head?, isNameChar c = true)
    (hlast : ∀ c ∈ name.toList.getLast?, isNameChar c = true) : IsBare name := by
  have htrim : trimChars name.toList = name.toList :=
    trimChars_eq_self (fun c hc => isBlank_of_isNameChar (hhead c hc)) fun c hc =>
      isBlank_of_isNameChar (hlast c hc)
  have hnone {opening closing : Char} (h : isNameChar opening = false) :
      between? opening closing name.toList = none :=
    between?_eq_none fun c hc => ne_of_isNameChar (hhead c hc) h
  rw [IsBare, unquote]
  simp only [htrim]
  rw [hnone (by decide), hnone (by decide), hnone (by decide)]
  exact String.ofList_toList

theorem IsIdentifier.normalize_eq (h : IsIdentifier name) : normalize name = lower name :=
  (isBare_of_ends (fun c hc => h c (List.mem_of_mem_head? hc)) fun c hc =>
    h c (List.mem_of_getLast? hc)).normalize_eq

/-- Words with low lines between them are in small letters. -/
theorem isSnake_intercalate (h : ∀ w ∈ ws, IsSnake w) (hne : ws ≠ []) :
    IsSnake ("_".intercalate ws) where
  ne_empty := by
    obtain rfl | ⟨more, w, rfl⟩ := ws.eq_nil_or_concat'
    · exact absurd rfl hne
    · exact intercalate_concat_ne_empty (h w (by simp)).ne_empty
  identifier c hc := by
    obtain hc | ⟨w, hw, hc⟩ := mem_intercalate hc
    · obtain rfl := List.mem_singleton.1 hc
      decide
    · exact (h w hw).identifier c hc
  small c hc := by
    obtain hc | ⟨w, hw, hc⟩ := mem_intercalate hc
    · obtain rfl := List.mem_singleton.1 hc
      decide
    · exact (h w hw).small c hc

/-- Words with blanks between them are in their normal form. -/
theorem normalize_intercalate (h : ∀ w ∈ ws, IsSnake w) :
    normalize (" ".intercalate ws) = " ".intercalate ws := by
  have hbare : IsBare (" ".intercalate ws) := by
    refine isBare_of_ends ?_ ?_
    · cases ws with
      | nil => exact fun c hc => by cases hc
      | cons w ws =>
          obtain ⟨behind, hjoined⟩ := exists_intercalate_cons " " w ws
          have hw := h w List.mem_cons_self
          rw [hjoined, String.toList_append,
            List.head?_append_of_ne_nil _ (by simpa using hw.ne_empty)]
          exact fun c hc => hw.identifier c (List.mem_of_mem_head? hc)
    · obtain rfl | ⟨front, w, rfl⟩ := ws.eq_nil_or_concat'
      · exact fun c hc => by cases hc
      · obtain ⟨before, hjoined⟩ := exists_intercalate_concat " " front w
        have hw := h w (List.mem_append_right _ List.mem_cons_self)
        rw [hjoined, String.toList_append,
          List.getLast?_append_of_ne_nil _ (by simpa using hw.ne_empty)]
        exact fun c hc => hw.identifier c (List.mem_of_getLast? hc)
  rw [hbare.normalize_eq]
  refine lower_eq_self fun c hc => ?_
  obtain hc | ⟨w, hw, hc⟩ := mem_intercalate hc
  · obtain rfl := List.mem_singleton.1 hc
    decide
  · exact (h w hw).small c hc

/-- Words with blanks between them are parted there. -/
theorem split_intercalate_blank (h : ∀ w ∈ ws, IsSnake w) (hne : ws ≠ []) :
    split (· == ' ') (" ".intercalate ws) = ws :=
  split_intercalate rfl rfl hne fun w hw c hc =>
    beq_false_of_ne (ne_of_isNameChar ((h w hw).identifier c hc) (by decide))

/-- One more word behind others, or alone if there are none. -/
theorem intercalate_blank_concat (h : ∀ w ∈ front, IsSnake w) :
    (if (" ".intercalate front).isEmpty then v else " ".intercalate front ++ " " ++ v) =
      " ".intercalate (front ++ [v]) := by
  obtain rfl | ⟨more, w, rfl⟩ := front.eq_nil_or_concat'
  · simp
  · have hne : " ".intercalate (more ++ [w]) ≠ "" :=
      intercalate_concat_ne_empty (h w (by simp)).ne_empty
    rw [if_neg fun hempty => hne (String.isEmpty_iff.1 hempty),
      intercalate_concat (List.append_ne_nil_of_right_ne_nil more (List.cons_ne_nil w []))]

theorem words_intercalate (h : ∀ w ∈ ws, IsSnake w) : words (" ".intercalate ws) = ws :=
  pieces_intercalate rfl (by decide) fun w hw =>
    ⟨(h w hw).ne_empty, fun c hc => isBlank_of_isNameChar ((h w hw).identifier c hc)⟩

theorem wordsToSnake_intercalate (h : ∀ w ∈ ws, IsSnake w) :
    wordsToSnake (" ".intercalate ws) = "_".intercalate ws := by
  have hlower : ws.map lower = ws :=
    (List.map_congr_left fun w hw => (h w hw).lower_eq).trans (List.map_id ws)
  rw [wordsToSnake, words_intercalate h, hlower]

/-- The name that is looked for when a word is given. -/
def sought (word : String) : String :=
  wordsToSnake (normalize word)

/-- Words are looked for with low lines in place of the blanks. -/
theorem sought_intercalate (h : ∀ w ∈ ws, IsSnake w) :
    sought (" ".intercalate ws) = "_".intercalate ws := by
  rw [sought, normalize_intercalate h, wordsToSnake_intercalate h]

/-- A name in small letters is looked for as it is. -/
theorem IsSnake.sought_eq (h : IsSnake f) : sought f = f := by
  have hone : sought (" ".intercalate [f]) = "_".intercalate [f] :=
    sought_intercalate fun w hw => List.mem_singleton.1 hw ▸ h
  simpa using hone

end Joined

/-! ### Forms -/

section Forms

variable {front : List String} {name last f : String}

/-- The pieces of a name between its low lines. -/
def stems (name : String) : List String :=
  pieces isSeparator (lower name)

theorem isStem_of_mem_stems (h : IsIdentifier name) {w : String} (hw : w ∈ stems name) :
    IsStem w where
  ne_empty := ne_empty_of_mem_pieces hw
  plain c hc := by
    obtain ⟨hmem, hcut⟩ := mem_of_mem_pieces hw hc
    rw [toList_lower] at hmem
    obtain ⟨d, hd, rfl⟩ := List.mem_map.1 hmem
    exact (isStemChar_iff (isNameChar_toLower (h d hd)) (isAsciiCapital_toLower d)).2 hcut

/-- The words of a name of several stems, the last one in some form. -/
theorem isSnake_of_mem_concat {v : String} (h : IsIdentifier name)
    (hstems : stems name = front ++ [last]) (hv : IsStem v) : ∀ w ∈ front ++ [v], IsSnake w := by
  intro w hw
  obtain hw | hw := List.mem_append.1 hw
  · exact (isStem_of_mem_stems h (hstems ▸ List.mem_append_left _ hw)).isSnake
  · exact List.mem_singleton.1 hw ▸ hv.isSnake

theorem isStem_last (h : IsIdentifier name) (hstems : stems name = front ++ [last]) :
    IsStem last :=
  isStem_of_mem_stems h (hstems ▸ List.mem_append_right _ List.mem_cons_self)

theorem snakeChars_eq_self {cs : List Char} (h : ∀ c ∈ cs, isAsciiCapital c = false)
    (afterSmall : Bool) : snakeChars afterSmall cs = cs := by
  induction cs generalizing afterSmall with
  | nil => rfl
  | cons c cs ih =>
      rw [snakeChars, h c List.mem_cons_self]
      exact congrArg (c :: ·) (ih (fun d hd => h d (List.mem_cons_of_mem c hd)) _)

/-- Where the letters are small already, no low line is put in. -/
theorem camelToSnake_lower (name : String) : camelToSnake (lower name) = lower name := by
  rw [camelToSnake, snakeChars_eq_self, String.ofList_toList]
  intro c hc
  rw [toList_lower] at hc
  obtain ⟨d, -, rfl⟩ := List.mem_map.1 hc
  exact isAsciiCapital_toLower d

theorem toWords_lower (name : String) : toWords (lower name) = " ".intercalate (stems name) := by
  rw [toWords, camelToSnake_lower, stems]

/-- The forms of a name: itself, its stems with blanks between them, and these with the last one in
the singular and in the plural, with low lines or blanks between them. -/
theorem mem_surfaceForms_iff (h : IsIdentifier name) (hstems : stems name = front ++ [last]) :
    f ∈ surfaceForms name ↔ f = lower name ∨ f = " ".intercalate (front ++ [last]) ∨
      ∃ v, (v = singular last ∨ v = plural last) ∧
        (f = "_".intercalate (front ++ [v]) ∨ f = " ".intercalate (front ++ [v])) := by
  have hlast := isStem_last h hstems
  have hwords {v : String} (hv : IsStem v) := isSnake_of_mem_concat h hstems hv
  have hparts := split_intercalate_blank (hwords hlast) (by simp)
  have hvariant (v : String) := intercalate_blank_concat (v := v) fun w hw =>
    hwords hlast w (List.mem_append_left _ hw)
  have hsnake {v : String} (hv : IsStem v) := wordsToSnake_intercalate (hwords hv)
  unfold surfaceForms
  simp only [h.normalize_eq, toWords_lower, camelToSnake_lower, hstems, hparts,
    List.dropLast_concat, List.getLast?_concat, Option.getD_some, List.map_cons, List.map_nil,
    hvariant, List.flatMap_cons, List.flatMap_nil, List.append_nil, List.cons_append,
    List.nil_append, hsnake hlast.singular, hsnake hlast.plural]
  rw [mem_foldl_addForm_iff]
  simp only [List.mem_cons, List.not_mem_nil, or_false]
  constructor
  · rintro (rfl | ⟨rfl | rfl | rfl | rfl | rfl | rfl, -⟩)
    · exact .inl rfl
    · exact .inl rfl
    · exact .inr (.inl rfl)
    · exact .inr (.inr ⟨_, .inl rfl, .inl rfl⟩)
    · exact .inr (.inr ⟨_, .inl rfl, .inr rfl⟩)
    · exact .inr (.inr ⟨_, .inr rfl, .inl rfl⟩)
    · exact .inr (.inr ⟨_, .inr rfl, .inr rfl⟩)
  · have hne {sep v : String} (hv : IsStem v) : sep.intercalate (front ++ [v]) ≠ "" :=
      intercalate_concat_ne_empty hv.ne_empty
    rintro (rfl | rfl | ⟨v, rfl | rfl, rfl | rfl⟩)
    · exact .inl rfl
    · exact .inr ⟨by simp, hne hlast⟩
    · exact .inr ⟨by simp, hne hlast.singular⟩
    · exact .inr ⟨by simp, hne hlast.singular⟩
    · exact .inr ⟨by simp, hne hlast.plural⟩
    · exact .inr ⟨by simp, hne hlast.plural⟩

/-- A name without stems has one more form, the plural ending. -/
theorem mem_surfaceForms_iff_of_nil (h : IsIdentifier name) (hstems : stems name = []) :
    f ∈ surfaceForms name ↔ f = lower name ∨ f = "s" := by
  unfold surfaceForms
  simp only [h.normalize_eq, toWords_lower, camelToSnake_lower, hstems]
  rw [mem_foldl_addForm_iff]
  change f ∈ [lower name] ∨ f ∈ [lower name, "", "", "", "s", "s"] ∧ f ≠ "" ↔ _
  simp only [List.mem_cons, List.not_mem_nil, or_false]
  constructor
  · rintro (rfl | ⟨rfl | rfl | rfl | rfl | rfl | rfl, hne⟩)
    · exact .inl rfl
    · exact .inl rfl
    · exact absurd rfl hne
    · exact absurd rfl hne
    · exact absurd rfl hne
    · exact .inr rfl
    · exact .inr rfl
  · rintro (rfl | rfl)
    · exact .inl rfl
    · exact .inr ⟨by simp, by decide⟩

theorem isIdentifier_lower (h : IsIdentifier name) : IsIdentifier (lower name) := by
  intro c hc
  rw [toList_lower] at hc
  obtain ⟨d, hd, rfl⟩ := List.mem_map.1 hc
  exact isNameChar_toLower (h d hd)

theorem isSnake_lower (h : IsIdentifier name) (hne : lower name ≠ "") : IsSnake (lower name) where
  ne_empty := hne
  identifier := isIdentifier_lower h
  small c hc := by
    rw [toList_lower] at hc
    obtain ⟨d, -, rfl⟩ := List.mem_map.1 hc
    exact isAsciiCapital_toLower d

theorem plural_intercalate (hfront : ∀ w ∈ front, IsSnake w) (hlast : IsStem last)
    (hy : last ≠ "y") :
    plural ("_".intercalate (front ++ [last])) = "_".intercalate (front ++ [plural last]) := by
  by_cases hne : front = []
  · simp [hne]
  · rw [intercalate_concat hne, intercalate_concat hne]
    exact plural_append (isSnake_intercalate hfront hne).lower_eq hlast hy

/-- What is looked for when a form is given is a form, or its plural is one. -/
theorem sought_mem_surfaceForms (h : IsIdentifier name) (hf : f ∈ surfaceForms name)
    (hne : f ≠ "") : sought f ≠ "" ∧
      (sought f ∈ surfaceForms name ∨ plural (sought f) ∈ surfaceForms name) := by
  have hbase (heq : f = lower name) : sought f = f :=
    IsSnake.sought_eq (heq ▸ isSnake_lower h (heq ▸ hne))
  obtain hnil | ⟨front, last, hstems⟩ := (stems name).eq_nil_or_concat'
  · obtain heq | rfl := (mem_surfaceForms_iff_of_nil h hnil).1 hf
    · rw [hbase heq]
      exact ⟨hne, .inl hf⟩
    · have hs : sought "s" = "s" := by decide
      rw [hs]
      exact ⟨hne, .inl hf⟩
  · have hlast := isStem_last h hstems
    have hwords {v : String} (hv : IsStem v) := isSnake_of_mem_concat h hstems hv
    have hform (g : String) : g ∈ surfaceForms name ↔ _ := mem_surfaceForms_iff h hstems
    have hinflected {v : String} (hv : v = singular last ∨ v = plural last) : IsStem v := by
      obtain rfl | rfl := hv
      · exact hlast.singular
      · exact hlast.plural
    obtain heq | rfl | ⟨v, hv, hjoined⟩ := (hform f).1 hf
    · rw [hbase heq]
      exact ⟨hne, .inl hf⟩
    · rw [sought_intercalate (hwords hlast)]
      refine ⟨intercalate_concat_ne_empty hlast.ne_empty, ?_⟩
      by_cases hy : last = "y"
      · -- behind a low line, `y` would become `ies`, but it is its own singular
        have hsame : singular last = last := hy ▸ rfl
        exact .inl ((hform _).2 (.inr (.inr ⟨_, .inl rfl, .inl (by rw [hsame])⟩)))
      · rw [plural_intercalate (fun w hw => hwords hlast w (List.mem_append_left _ hw)) hlast hy]
        exact .inr ((hform _).2 (.inr (.inr ⟨_, .inr rfl, .inl rfl⟩)))
    · have hsought : sought f = "_".intercalate (front ++ [v]) := by
        obtain rfl | rfl := hjoined
        · exact (isSnake_intercalate (hwords (hinflected hv)) (by simp)).sought_eq
        · exact sought_intercalate (hwords (hinflected hv))
      rw [hsought]
      exact ⟨intercalate_concat_ne_empty (hinflected hv).ne_empty,
        .inl ((hform _).2 (.inr (.inr ⟨v, hv, .inl rfl⟩)))⟩

/-- No form is empty but that of the empty name. -/
theorem eq_empty_of_mem_surfaceForms (h : IsIdentifier name) (hf : "" ∈ surfaceForms name) :
    name = "" := by
  unfold surfaceForms at hf
  rw [mem_foldl_addForm_iff, h.normalize_eq, List.mem_singleton] at hf
  obtain hlower | ⟨-, hne⟩ := hf
  · rw [← String.toList_inj, toList_lower] at hlower
    simpa using hlower.symm
  · exact absurd rfl hne

end Forms

end Name

/-- A table that is meant by a name: by its singular or its plural, by itself, or as a synonym. -/
def Table.IsMeant (t : Table) (name : String) : Prop :=
  Name.singular name ∈ Name.surfaceForms t.name ∨ Name.plural name ∈ Name.surfaceForms t.name ∨
    name ∈ Name.surfaceForms t.name ∨ ∃ y ∈ t.synonyms, Name.normalize y = name

namespace Schema

open Name (IsIdentifier IsStem sought surfaceForms singular plural)

section Finding

variable {s : Schema} {t : Table} {word form : String}

/-- Some table is found by a word if one has the name that is looked for, or is meant by it. -/
theorem isSome_findTable?_iff : (s.findTable? word).isSome = true ↔
    sought word ≠ "" ∧
      ((s.table? (sought word)).isSome = true ∨ ∃ t ∈ s.tables, t.IsMeant (sought word)) := by
  rw [findTable?]
  change (if (sought word).isEmpty then none else
    s.table? (sought word) <|> s.tables.find? _).isSome = true ↔ _
  split
  · next hempty => simp [String.isEmpty_iff.1 hempty]
  · next hne =>
      rw [String.isEmpty_iff] at hne
      cases s.table? (sought word) with
      | none =>
          unfold sought at hne ⊢
          simp [hne, Table.IsMeant, or_assoc]
      | some u => simp [hne]

/-- The only table is the one that is found. -/
theorem eq_of_findTable? {u : Table} (h : s.findTable? word = some u) (honly : s.tables = [t]) :
    u = t :=
  List.mem_singleton.1 (honly ▸ mem_of_findTable? h)

/-- Each form of a name of letters, digits and low lines finds a table, and its own one if the
schema has no other.  The empty name alone has an empty form, which finds none.  A table that is
alone and is named by the singular or the plural of a word is found by the word. -/
theorem findTable?_forms (s : Schema) :
    (∀ t ∈ s.tables, IsIdentifier t.name → ∀ f ∈ surfaceForms t.name,
      f = "" ∧ t.name = "" ∨
        ∃ u, s.findTable? f = some u ∧ (s.tables = [t] → u = t)) ∧
      ∀ w, IsStem w → ∀ t, s.tables = [t] → t.name = singular w ∨ t.name = plural w →
        s.findTable? w = some t := by
  refine ⟨fun t ht hname f hf => ?_, fun w hw t honly hname => ?_⟩
  · by_cases hne : f = ""
    · exact .inl ⟨hne, Name.eq_empty_of_mem_surfaceForms hname (hne ▸ hf)⟩
    · obtain ⟨hsought, hform⟩ := Name.sought_mem_surfaceForms hname hf hne
      refine .inr ?_
      have hmeant : t.IsMeant (sought f) := by
        obtain hform | hform := hform
        · exact .inr (.inr (.inl hform))
        · exact .inr (.inl hform)
      obtain ⟨u, hu⟩ := Option.isSome_iff_exists.1
        (isSome_findTable?_iff.2 ⟨hsought, .inr ⟨t, ht, hmeant⟩⟩)
      exact ⟨u, hu, eq_of_findTable? hu⟩
  · have hsought : sought w = w := hw.isSnake.sought_eq
    have hstem : IsStem t.name := by
      obtain hname | hname := hname
      · exact hname ▸ hw.singular
      · exact hname ▸ hw.plural
    have hform : t.name ∈ surfaceForms t.name := by
      have hown := Name.normalize_mem_surfaceForms t.name
      rwa [hstem.isSnake.identifier.normalize_eq, hstem.isSnake.lower_eq] at hown
    have hmeant : t.IsMeant w := by
      obtain hname | hname := hname
      · exact .inl (hname ▸ hform)
      · exact .inr (.inl (hname ▸ hform))
    have hmem : t ∈ s.tables := by
      rw [honly]
      exact List.mem_cons_self
    have hsome : (s.findTable? w).isSome = true := by
      rw [isSome_findTable?_iff, hsought]
      exact ⟨hw.ne_empty, .inr ⟨t, hmem, hmeant⟩⟩
    obtain ⟨u, hu⟩ := Option.isSome_iff_exists.1 hsome
    rw [hu, eq_of_findTable? hu honly]

end Finding

/-- A schema of one table without columns. -/
def alone (name : String) : Schema where
  tables := [{ name, columns := [] }]

/-- The order items are found by `order item`, and the categories by `category`. -/
theorem findTable?_forms_orderItems :
    let t : Table := { name := "order_items", columns := [] }
    let c : Table := { name := "categories", columns := [] }
    IsIdentifier t.name ∧ "order item" ∈ surfaceForms t.name ∧
      (alone "order_items").findTable? "order item" = some t ∧
      IsStem "category" ∧ c.name = plural "category" ∧
      (alone "categories").findTable? "category" = some c := by
  intro t c
  have hname : IsIdentifier t.name := by decide
  have hform : "order item" ∈ surfaceForms t.name := by decide +kernel
  have hstem : IsStem "category" := by decide
  have hplural : c.name = plural "category" := by rfl
  refine ⟨hname, hform, ?_, hstem, hplural, ?_⟩
  · have hfound := (findTable?_forms (alone "order_items")).1 t List.mem_cons_self hname _ hform
    obtain ⟨-, hempty⟩ | ⟨u, hu, honly⟩ := hfound
    · exact absurd hempty (by decide)
    · rw [hu, honly rfl]
  · exact (findTable?_forms (alone "categories")).2 _ hstem c rfl (.inr hplural)

/-- The empty name is a form of itself, and no table is found by it. -/
theorem findTable?_nameless :
    IsIdentifier "" ∧ "" ∈ surfaceForms "" ∧ (alone "").findTable? "" = none := by
  decide +kernel

end Schema

end AskSql
