import AskSql.Proofs.Render.Conditions
import Mathlib.Data.List.Forall2

/-!
# Layout of a statement

The clauses of a statement, word for word.  `Layout d q` holds what of them depends on how items,
conditions and keys are spelled, with what is known about it; the rest can be read off the query.
The text of a query whose conditions are made of the words of conditions spells the clauses of such
a layout (`exists_layout`).
-/

namespace AskSql

open Words

/-- The texts of some conditions with their values spelled out. -/
def Dialect.conditionTexts (d : Dialect) (cs : List Condition) : Except Failure (List String) :=
  ((d.conditions false cs).run []).map Prod.fst

/-- Texts and the words that they spell. -/
abbrev SpellsAll (ts : List String) (wss : List Phrase) : Prop :=
  List.Forall₂ (fun t ws => Spells isSpace t.toList ws) ts wss

/-- The words of some conditions. -/
def ToldAll (d : Dialect) (cs : List Condition) (wss : List Phrase) : Prop :=
  ∃ ts, d.conditionTexts cs = .ok ts ∧ SpellsAll ts wss ∧ ∀ ws ∈ wss, IsCondition ws

/-- The first words of a join. -/
def JoinKind.opener : JoinKind → Word
  | .inner => "INNER".toList
  | .left => "LEFT".toList

/-- The words by which two columns are matched. -/
def Dialect.matching (d : Dialect) (j : Join) : Phrase :=
  [(d.reference j.left).toList, "=".toList, (d.reference j.right).toList]

/-- The words of a join. -/
def JoinTold (d : Dialect) (j : Join) (clause : Phrase) : Prop :=
  ∃ wss, ToldAll d j.conditions wss ∧
    clause = j.kind.opener :: "JOIN".toList :: (d.quoteName j.right.table).toList :: "ON".toList ::
      conjunction (d.matching j :: wss)

namespace Words

/-- The clause of some conditions, unless there are none. -/
def conditionPart (opener : Word) : List Phrase → List Phrase
  | [] => []
  | wss => [opener :: conjunction wss]

/-- Phrases with commas between them. -/
def listing : List Phrase → Phrase
  | [] => []
  | [ws] => ws
  | ws :: rest => attach ws [','] ++ listing rest

end Words

namespace Dialect

/-- The clause of some keys, unless there are none. -/
def keyPart (d : Dialect) : List Reference → List Phrase
  | [] => []
  | keys => ["GROUP".toList :: "BY".toList :: listing (keys.map fun k => [(d.reference k).toList])]

/-- The words of a limit. -/
def limitWords (d : Dialect) (n : Nat) : Phrase :=
  match d with
  | ansi => ["FETCH".toList, "FIRST".toList, (toString n).toList, "ROWS".toList, "ONLY".toList]
  | _ => ["LIMIT".toList, (toString n).toList]

end Dialect

/-- The clauses of a query. -/
structure Layout (d : Dialect) (q : Query) where
  selected : Phrase
  joined : List Phrase
  filtered : List Phrase
  grouped : List Phrase
  ordered : List Phrase
  selected_ordinary : ∀ w ∈ selected, IsOrdinary w
  joined_told : List.Forall₂ (JoinTold d) q.joins joined
  filtered_told : ∃ wss, ToldAll d q.filters wss ∧
    filtered = conditionPart "WHERE".toList wss
  grouped_told : ∃ wss, ToldAll d q.having wss ∧
    grouped = conditionPart "HAVING".toList wss
  ordered_ordinary : ∀ c ∈ ordered, ∃ ws, c = "ORDER".toList :: ws ∧ ∀ w ∈ ws, IsOrdinary w

/-- The clauses place by place. -/
def Layout.parts {d : Dialect} {q : Query} (l : Layout d q) : List (List Phrase) :=
  [["SELECT".toList :: ((if q.distinct then [distinguisher] else []) ++ l.selected)],
    [["FROM".toList, (d.quoteName q.source).toList]], l.joined, l.filtered, d.keyPart q.groupBy,
    l.grouped, l.ordered, q.limit.toList.map d.limitWords]

/-! ### Texts with something between them -/

/-- The two texts between clauses. -/
def IsBreak (between : String) : Prop :=
  between = " " ∨ between = "\n"

theorem spells_clauses {between : String} (hbetween : IsBreak between) {ts : List String}
    {clauses : List Phrase}
    (h : List.Forall₂ (fun t c => Spells isSpace t.toList c) ts clauses) (hne : ts ≠ []) :
    Spells isGap (between.intercalate ts).toList clauses.flatten := by
  have hgap : ∃ b, between.toList = [b] ∧ isGap b = true := by
    obtain rfl | rfl := hbetween
    · exact ⟨' ', rfl, rfl⟩
    · exact ⟨'\n', rfl, rfl⟩
  obtain ⟨b, hb, hblank⟩ := hgap
  induction h with
  | nil => exact absurd rfl hne
  | @cons t c ts clauses hhead htail ih =>
      cases htail with
      | nil => simpa using hhead.mono isGap_of_isSpace
      | cons _ _ =>
          have hrest := ih (by simp)
          rw [String.intercalate_cons_cons, String.toList_append, String.toList_append, hb,
            List.append_assoc, List.flatten_cons]
          exact (hhead.mono isGap_of_isSpace).append hblank hrest

theorem spells_conjunction {ts : List String} {wss : List Phrase}
    (h : List.Forall₂ (fun t ws => Spells isSpace t.toList ws) ts wss) (hne : ts ≠ []) :
    Spells isSpace (" AND ".intercalate ts).toList (conjunction wss) := by
  induction h with
  | nil => exact absurd rfl hne
  | @cons t ws ts wss hhead htail ih =>
      cases htail with
      | nil => simpa [conjunction] using hhead
      | @cons u vs us vss _ _ =>
          have hrest : Spells isSpace (conjoiner ++ ' ' :: (" AND ".intercalate (u :: us)).toList)
              (conjoiner :: conjunction (vs :: vss)) := .plain (by decide) (ih (by simp))
          have htext : (t ++ " AND " ++ " AND ".intercalate (u :: us)).toList =
              t.toList ++ ' ' :: (conjoiner ++ ' ' :: (" AND ".intercalate (u :: us)).toList) := by
            simp [conjoiner]
          rw [String.intercalate_cons_cons, htext]
          exact hhead.append rfl hrest

theorem spells_listing {ts : List String} {wss : List Phrase}
    (h : List.Forall₂ (fun t ws => Spells isSpace t.toList ws) ts wss) (hne : ts ≠ []) :
    Spells isSpace (", ".intercalate ts).toList (listing wss) := by
  have hcomma : Closed false [','] := .plain rfl
  induction h with
  | nil => exact absurd rfl hne
  | @cons t ws ts wss hhead htail ih =>
      cases htail with
      | nil => simpa [listing] using hhead
      | @cons u vs us vss _ _ =>
          have htext : (t ++ ", " ++ ", ".intercalate (u :: us)).toList =
              (t.toList ++ [',']) ++ ' ' :: (", ".intercalate (u :: us)).toList := by
            simp
          rw [String.intercalate_cons_cons, htext]
          exact (hhead.attach hcomma).append rfl (ih (by simp))

theorem ordinary_listing {wss : List Phrase} (h : ∀ ws ∈ wss, ∀ w ∈ ws, IsOrdinary w) :
    ∀ w ∈ listing wss, IsOrdinary w := by
  induction wss with
  | nil => simp [listing]
  | cons ws wss ih =>
      rw [List.forall_mem_cons] at h
      cases wss with
      | nil => exact h.1
      | cons vs vss =>
          rw [listing, List.forall_mem_append]
          · refine ⟨?_, ih h.2⟩
            intro w hw
            obtain hw | ⟨u, rfl⟩ := mem_attach hw
            · exact h.1 w hw
            · exact isOrdinary_of_mem (c := ',') (by simp) rfl
          · simp

/-- Phrases with commas between them are a phrase. -/
theorem isPhrase_list {ss : List String} (h : ∀ s ∈ ss, IsPhrase s) (hne : ss ≠ []) :
    IsPhrase (", ".intercalate ss) := by
  have hwords : ∃ wss, List.Forall₂ (fun t ws => Spells isSpace t.toList ws) ss wss ∧
      ∀ ws ∈ wss, ∀ w ∈ ws, IsOrdinary w := by
    clear hne
    induction ss with
    | nil => exact ⟨[], .nil, by simp⟩
    | cons s ss ih =>
        rw [List.forall_mem_cons] at h
        obtain ⟨ws, hws, hordinary⟩ := h.1
        obtain ⟨wss, hwss, hall⟩ := ih h.2
        exact ⟨ws :: wss, .cons hws hwss, List.forall_mem_cons.2 ⟨hordinary, hall⟩⟩
  obtain ⟨wss, hwss, hordinary⟩ := hwords
  exact ⟨listing wss, spells_listing hwss hne, ordinary_listing hordinary⟩

/-! ### Selected items and keys of the order -/

namespace Dialect

variable (d : Dialect)

theorem isPhrase_labelled {s : String} (hs : IsWord s) (label : String) :
    IsPhrase (s ++ " AS " ++ d.quoteName label) := by
  have has : IsPhrase "AS" := isPhrase_of_plain (by decide) (by decide)
  have hall := (hs.isPhrase.append has).append (d.isWord_quoteName label).isPhrase
  have htext : s ++ " AS " ++ d.quoteName label =
      s ++ " " ++ "AS" ++ " " ++ d.quoteName label := by
    rw [← String.toList_inj]
    simp
  rw [htext]
  exact hall

theorem isPhrase_item {i : Item} {s : String} (hraw : i.isRawFree = true)
    (h : d.item i = .ok s) : IsPhrase s := by
  cases i with
  | column c =>
      have hcolumn := d.isWord_reference c
      obtain rfl := Except.ok.inj h
      by_cases hstar : c.isStar = true
      · rw [if_pos hstar]
        exact hcolumn.isPhrase
      · rw [if_neg hstar]
        exact d.isPhrase_labelled hcolumn _
  | aggregate a =>
      obtain ⟨t, ht, hs⟩ := (Failure.bind_eq_ok_iff _ _ _).1 h
      have haggregate := d.isWord_aggregate hraw ht
      obtain rfl := Except.ok.inj hs
      cases a.label with
      | none => exact haggregate.isPhrase
      | some label => exact d.isPhrase_labelled haggregate label

/-- What holds of the outcome of each holds of all outcomes. -/
theorem forall_mem_of_mapM {α : Type} {f : α → Except Failure String} {P : String → Prop}
    {as : List α} {ss : List String} (hf : ∀ a ∈ as, ∀ s, f a = .ok s → P s)
    (h : as.mapM f = .ok ss) : (∀ s ∈ ss, P s) ∧ ss.length = as.length := by
  induction as generalizing ss with
  | nil =>
      obtain rfl := Except.ok.inj h
      exact ⟨by simp, rfl⟩
  | cons a as ih =>
      rw [List.forall_mem_cons] at hf
      rw [List.mapM_cons] at h
      obtain ⟨s, hs, hrest⟩ := (Failure.bind_eq_ok_iff _ _ _).1 h
      obtain ⟨ts, hts, hss⟩ := (Failure.bind_eq_ok_iff _ _ _).1 hrest
      obtain rfl := Except.ok.inj hss
      obtain ⟨hall, hlength⟩ := ih hf.2 hts
      exact ⟨List.forall_mem_cons.2 ⟨hf.1 s hs, hall⟩, by simp [hlength]⟩

theorem isPhrase_items {source : String} {is : List Item} {ss : List String}
    (hraw : ∀ i ∈ is, i.isRawFree = true) (h : d.items source is = .ok ss) :
    (∀ s ∈ ss, IsPhrase s) ∧ ss ≠ [] := by
  cases is with
  | nil =>
      obtain rfl := Except.ok.inj h
      have hstar : IsWord (d.quoteName source ++ ".*") := by
        have hpoint : Closed false ".*".toList := .of_plain (by decide)
        unfold IsWord
        rw [String.toList_append]
        exact ⟨.append (d.isWord_quoteName source).1 hpoint,
          isOrdinary_of_mem (c := '.') (by simp) rfl⟩
      exact ⟨by simpa using hstar.isPhrase, by simp⟩
  | cons i is =>
      obtain ⟨hall, hlength⟩ := forall_mem_of_mapM
        (fun i hi s hs => d.isPhrase_item (hraw i hi) hs) h
      refine ⟨hall, ?_⟩
      rintro rfl
      simp at hlength

theorem isWord_orderItem {selected : List Aggregate} {i : Item} {s : String}
    (hraw : i.isRawFree = true) (h : d.orderItem selected i = .ok s) : IsWord s := by
  cases i with
  | column c =>
      obtain rfl := Except.ok.inj h
      exact d.isWord_reference c
  | aggregate a =>
      simp only [orderItem] at h
      split at h
      · obtain rfl := Except.ok.inj h
        exact d.isWord_quoteName _
      · exact d.isWord_aggregate hraw h

theorem isPhrase_orderKey {selected : List Aggregate} {k : SortKey} {s : String}
    (hraw : k.item.isRawFree = true) (h : d.orderKey selected k = .ok s) : IsPhrase s := by
  obtain ⟨t, ht, hs⟩ := (Failure.bind_eq_ok_iff _ _ _).1 h
  have hitem := (d.isWord_orderItem hraw ht).isPhrase
  obtain rfl := Except.ok.inj hs
  cases k.direction with
  | none => exact hitem
  | some direction =>
      cases direction with
      | asc =>
          have hword : IsPhrase "ASC" := isPhrase_of_plain (by decide) (by decide)
          have hasc := hitem.append hword
          rw [String.append_assoc] at hasc
          exact hasc
      | desc =>
          have hword : IsPhrase "DESC" := isPhrase_of_plain (by decide) (by decide)
          have hdesc := hitem.append hword
          rw [String.append_assoc] at hdesc
          exact hdesc

end Dialect

/-! ### The text of a query spells its layout -/

section Existence

variable (d : Dialect)

/-- The conditions are made of the words of conditions. -/
def Spoken (cs : List Condition) : Prop :=
  ∀ c ∈ cs, ∀ s, Statement.condition d c = .ok s → IsConditionText (s.inline d)

variable {d}

theorem conditionTexts_eq (cs : List Condition) :
    d.conditionTexts cs = (Statement.conditions d cs).map (List.map (Statement.inline d)) := by
  have hwrites := writesAll_conditions d false cs []
  show ((d.conditions false cs) []).map Prod.fst = _
  rw [hwrites]
  cases Statement.conditions d cs with
  | error e => rfl
  | ok ss =>
      show Except.ok (Statement.readAll d false 1 ss) = _
      rw [Statement.readAll_eq_inline]
      rfl

theorem exists_told {cs : List Condition} (hspoken : Spoken d cs) {ss : List Statement}
    (h : Statement.conditions d cs = .ok ss) :
    ∃ wss, ToldAll d cs wss ∧ SpellsAll (ss.map (Statement.inline d)) wss := by
  have htexts : d.conditionTexts cs = .ok (ss.map (Statement.inline d)) := by
    rw [conditionTexts_eq, h]
    rfl
  have hwords : ∃ wss, SpellsAll (ss.map (Statement.inline d)) wss ∧
      ∀ ws ∈ wss, IsCondition ws := by
    clear htexts
    induction cs generalizing ss with
    | nil =>
        obtain rfl := Except.ok.inj h
        exact ⟨[], .nil, by simp⟩
    | cons c cs ih =>
        rw [Spoken, List.forall_mem_cons] at hspoken
        obtain ⟨s, hs, hrest⟩ := (Failure.bind_eq_ok_iff _ _ _).1 h
        obtain ⟨ts, hts, hss⟩ := (Failure.bind_eq_ok_iff _ _ _).1 hrest
        obtain rfl := Except.ok.inj hss
        obtain ⟨ws, hws, hcondition⟩ := hspoken.1 s hs
        obtain ⟨wss, hspells, hall⟩ := ih hspoken.2 hts
        exact ⟨ws :: wss, .cons hws hspells, List.forall_mem_cons.2 ⟨hcondition, hall⟩⟩
  obtain ⟨wss, hspells, hall⟩ := hwords
  exact ⟨wss, ⟨_, htexts, hspells, hall⟩, hspells⟩

theorem spells_matching (j : Join) :
    Spells isSpace (d.reference j.left ++ " = " ++ d.reference j.right).toList (d.matching j) := by
  have htext : (d.reference j.left ++ " = " ++ d.reference j.right).toList =
      (d.reference j.left).toList ++ ' ' :: ("=".toList ++ ' ' :: (d.reference j.right).toList) := by
    simp
  rw [htext]
  exact .more (d.isWord_reference j.left).1 rfl
    (.plain (by decide) (.one (d.isWord_reference j.right).1))

theorem exists_joinTold {js : List Join} (hspoken : ∀ j ∈ js, Spoken d j.conditions)
    {ss : List Statement} (h : Statement.joins d js = .ok ss) :
    ∃ clauses, List.Forall₂ (JoinTold d) js clauses ∧
      SpellsAll (ss.map (Statement.inline d)) clauses := by
  induction js generalizing ss with
  | nil =>
      obtain rfl := Except.ok.inj h
      exact ⟨[], .nil, .nil⟩
  | cons j js ih =>
      rw [List.forall_mem_cons] at hspoken
      obtain ⟨kind, left, right, cs⟩ := j
      obtain ⟨extra, hextra, hrest⟩ := (Failure.bind_eq_ok_iff _ _ _).1 h
      obtain ⟨ts, hts, hss⟩ := (Failure.bind_eq_ok_iff _ _ _).1 hrest
      obtain rfl := Except.ok.inj hss
      obtain ⟨wss, htold, hspells⟩ := exists_told hspoken.1 hextra
      obtain ⟨clauses, hclauses, hall⟩ := ih hspoken.2 hts
      let j : Join := ⟨kind, left, right, cs⟩
      let on := d.reference left ++ " = " ++ d.reference right
      have hon : Spells isSpace
          (" AND ".intercalate (on :: extra.map (Statement.inline d))).toList
          (conjunction (d.matching j :: wss)) :=
        spells_conjunction (.cons (spells_matching j) hspells) (by simp)
      have hopener : kind.opener.all isPlain = true := by
        cases kind <;> decide
      have htext : (Statement.inline d
            (.text (kind.sql ++ " " ++ d.quoteName right.table ++ " ON ") ::
              Statement.join " AND " ([.text on] :: extra))).toList =
          kind.opener ++ ' ' :: ("JOIN".toList ++ ' ' :: ((d.quoteName right.table).toList ++ ' ' ::
            ("ON".toList ++ ' ' ::
              (" AND ".intercalate (on :: extra.map (Statement.inline d))).toList))) := by
        rw [Statement.inline_text, Statement.inline_join]
        cases kind <;> simp [JoinKind.sql, JoinKind.opener]
      refine ⟨_ :: clauses, .cons ⟨wss, htold, rfl⟩ hclauses, .cons ?_ hall⟩
      show Spells isSpace (Statement.inline d _).toList _
      rw [htext]
      exact .plain hopener
        (.plain (by decide) (.more (d.isWord_quoteName right.table).1 rfl (.plain (by decide) hon)))

theorem spellsAll_conditionPart {keyword : String} {opener : Word}
    (hkeyword : keyword.toList = opener ++ [' ']) (hopener : opener.all isPlain = true)
    {ts : List String} {wss : List Phrase} (h : SpellsAll ts wss) :
    SpellsAll (Dialect.clause keyword " AND " ts) (conditionPart opener wss) := by
  cases h with
  | nil => exact .nil
  | @cons t ws ts wss hhead htail =>
      have hall := spells_conjunction (.cons hhead htail) (by simp)
      refine .cons ?_ .nil
      rw [String.toList_append, hkeyword, List.append_assoc]
      exact .plain hopener hall

theorem spellsAll_keyPart (keys : List Reference) :
    SpellsAll (Dialect.clause "GROUP BY " ", " (keys.map d.reference)) (d.keyPart keys) := by
  cases keys with
  | nil => exact .nil
  | cons k ks =>
      have hwords : SpellsAll ((k :: ks).map d.reference)
          ((k :: ks).map fun k => [(d.reference k).toList]) := by
        rw [SpellsAll, List.forall₂_map_left_iff, List.forall₂_map_right_iff, List.forall₂_same]
        exact fun r _ => .one (d.isWord_reference r).1
      have hlisting := spells_listing hwords (by simp)
      have htext : ("GROUP BY " ++ ", ".intercalate ((k :: ks).map d.reference)).toList =
          "GROUP".toList ++ ' ' :: ("BY".toList ++ ' ' ::
            (", ".intercalate ((k :: ks).map d.reference)).toList) := by
        simp
      refine .cons ?_ .nil
      rw [htext]
      exact .plain (by decide) (.plain (by decide) hlisting)

theorem spells_limitWords (n : Nat) : Spells isSpace (d.limit n).toList (d.limitWords n) := by
  have hnumber := (isWord_nat n).1
  have hlimit : Spells isSpace ("LIMIT " ++ toString n).toList
      ["LIMIT".toList, (toString n).toList] := by
    have htext : ("LIMIT " ++ toString n).toList =
        "LIMIT".toList ++ ' ' :: (toString n).toList := by simp
    rw [htext]
    exact .plain (by decide) (.one hnumber)
  cases d with
  | ansi =>
      have honly : Closed false "ONLY".toList := .of_plain (by decide)
      have htext : ("FETCH FIRST " ++ toString n ++ " ROWS ONLY").toList =
          "FETCH".toList ++ ' ' :: ("FIRST".toList ++ ' ' :: ((toString n).toList ++ ' ' ::
            ("ROWS".toList ++ ' ' :: "ONLY".toList))) := by
        simp
      show Spells isSpace ("FETCH FIRST " ++ toString n ++ " ROWS ONLY").toList _
      rw [htext]
      exact .plain (by decide)
        (.plain (by decide) (.more hnumber rfl (.plain (by decide) (.one honly))))
  | sqlite | postgres | mySql => exact hlimit

theorem exists_ordered {ss : List String} (h : ∀ s ∈ ss, IsPhrase s) :
    ∃ ordered, SpellsAll (Dialect.clause "ORDER BY " ", " ss) ordered ∧
      ∀ c ∈ ordered, ∃ ws, c = "ORDER".toList :: ws ∧ ∀ w ∈ ws, IsOrdinary w := by
  cases ss with
  | nil => exact ⟨[], .nil, by simp⟩
  | cons s ss =>
      obtain ⟨ws, hws, hordinary⟩ := isPhrase_list h (by simp)
      have htext : ("ORDER BY " ++ ", ".intercalate (s :: ss)).toList =
          "ORDER".toList ++ ' ' :: ("BY".toList ++ ' ' :: (", ".intercalate (s :: ss)).toList) := by
        simp
      refine ⟨["ORDER".toList :: "BY".toList :: ws], .cons ?_ .nil, ?_⟩
      · rw [htext]
        exact .plain (by decide) (.plain (by decide) hws)
      · rw [List.forall_mem_singleton]
        exact ⟨_, rfl, List.forall_mem_cons.2 ⟨by decide, hordinary⟩⟩

theorem exists_selected (distinct : Bool) {ss : List String} (h : ∀ s ∈ ss, IsPhrase s)
    (hne : ss ≠ []) :
    ∃ selected : Phrase, (∀ w ∈ selected, IsOrdinary w) ∧
      SpellsAll (Dialect.clause (if distinct then "SELECT DISTINCT " else "SELECT ") ", " ss)
        ["SELECT".toList :: ((if distinct then [distinguisher] else []) ++ selected)] := by
  obtain ⟨ws, hws, hordinary⟩ := isPhrase_list h hne
  refine ⟨ws, hordinary, ?_⟩
  cases ss with
  | nil => exact absurd rfl hne
  | cons s ss =>
      refine .cons ?_ .nil
      cases distinct with
      | false =>
          have htext : ("SELECT " ++ ", ".intercalate (s :: ss)).toList =
              "SELECT".toList ++ ' ' :: (", ".intercalate (s :: ss)).toList := by simp
          show Spells isSpace ("SELECT " ++ ", ".intercalate (s :: ss)).toList _
          rw [htext]
          exact .plain (by decide) hws
      | true =>
          have htext : ("SELECT DISTINCT " ++ ", ".intercalate (s :: ss)).toList =
              "SELECT".toList ++ ' ' :: ("DISTINCT".toList ++ ' ' ::
                (", ".intercalate (s :: ss)).toList) := by
            simp
          have hrest : Spells isSpace (distinguisher ++ ' ' :: (", ".intercalate (s :: ss)).toList)
              (distinguisher :: ws) := .plain (by decide) hws
          show Spells isSpace ("SELECT DISTINCT " ++ ", ".intercalate (s :: ss)).toList
            ("SELECT".toList :: distinguisher :: ws)
          rw [htext]
          exact .plain (by decide) hrest

/-- The text of a query, clause by clause. -/
theorem inline_select {between : String} {q : Query} {s : Statement}
    (h : Statement.select d between q = .ok s) :
    ∃ selected joined filtered grouped ordered,
      d.items q.source q.items = .ok selected ∧ Statement.joins d q.joins = .ok joined ∧
      Statement.conditions d q.filters = .ok filtered ∧
      Statement.conditions d q.having = .ok grouped ∧
      d.orderKeys q.items q.orderBy = .ok ordered ∧
      s.inline d = between.intercalate
        (Dialect.clause (if q.distinct then "SELECT DISTINCT " else "SELECT ") ", " selected ++
          ["FROM " ++ d.quoteName q.source] ++ joined.map (Statement.inline d) ++
          Dialect.clause "WHERE " " AND " (filtered.map (Statement.inline d)) ++
          Dialect.clause "GROUP BY " ", " (q.groupBy.map d.reference) ++
          Dialect.clause "HAVING " " AND " (grouped.map (Statement.inline d)) ++
          Dialect.clause "ORDER BY " ", " ordered ++ q.limit.toList.map d.limit) := by
  obtain ⟨source, is, js, filters, groupBy, having, orderBy, limit, distinct⟩ := q
  obtain ⟨selected, hselected, h⟩ := (Failure.bind_eq_ok_iff _ _ _).1 h
  obtain ⟨joined, hjoined, h⟩ := (Failure.bind_eq_ok_iff _ _ _).1 h
  obtain ⟨filtered, hfiltered, h⟩ := (Failure.bind_eq_ok_iff _ _ _).1 h
  obtain ⟨grouped, hgrouped, h⟩ := (Failure.bind_eq_ok_iff _ _ _).1 h
  obtain ⟨ordered, hordered, h⟩ := (Failure.bind_eq_ok_iff _ _ _).1 h
  refine ⟨selected, joined, filtered, grouped, ordered, hselected, hjoined, hfiltered, hgrouped,
    hordered, ?_⟩
  rw [← Except.ok.inj h, Statement.inline, Statement.read_join]
  simp only [Statement.readAll_append, Statement.readAll_texts,
    Statement.readAll_conditionClause, Statement.readAll_eq_inline]

theorem spellsAll_source (source : String) :
    SpellsAll ["FROM " ++ d.quoteName source] [["FROM".toList, (d.quoteName source).toList]] := by
  have htext : ("FROM " ++ d.quoteName source).toList =
      "FROM".toList ++ ' ' :: (d.quoteName source).toList := by simp
  refine .cons ?_ .nil
  rw [htext]
  exact .plain (by decide) (.one (d.isWord_quoteName source).1)

/-- The text of a query spells the clauses of a layout, if its conditions are made of the words of
conditions and what it selects and orders by has no raw pieces. -/
theorem exists_layout {between : String} (hbetween : IsBreak between) {q : Query}
    (hitems : ∀ i ∈ q.items, i.isRawFree = true)
    (hjoins : ∀ j ∈ q.joins, Spoken d j.conditions) (hfilters : Spoken d q.filters)
    (hhaving : Spoken d q.having) (horder : ∀ k ∈ q.orderBy, k.item.isRawFree = true)
    {s : Statement} (h : Statement.select d between q = .ok s) :
    ∃ l : Layout d q, Spells isGap (s.inline d).toList l.parts.flatten.flatten := by
  obtain ⟨selected, joined, filtered, grouped, ordered, hselected, hjoined, hfiltered, hgrouped,
    hordered, htext⟩ := inline_select h
  obtain ⟨hphrases, hne⟩ := d.isPhrase_items hitems hselected
  obtain ⟨ws, hordinary, hselect⟩ := exists_selected q.distinct hphrases hne
  obtain ⟨jss, hjs, hjoin⟩ := exists_joinTold hjoins hjoined
  obtain ⟨fss, hfs, hfilter⟩ := exists_told hfilters hfiltered
  obtain ⟨gss, hgs, hgroup⟩ := exists_told hhaving hgrouped
  obtain ⟨hkeys, -⟩ := Dialect.forall_mem_of_mapM
    (fun k hk s hs => d.isPhrase_orderKey (horder k hk) hs) hordered
  obtain ⟨oss, hos, hopeners⟩ := exists_ordered hkeys
  have hwhere : SpellsAll (Dialect.clause "WHERE " " AND " (filtered.map (Statement.inline d)))
      (conditionPart "WHERE".toList fss) :=
    spellsAll_conditionPart rfl (by decide) hfilter
  have hhave : SpellsAll (Dialect.clause "HAVING " " AND " (grouped.map (Statement.inline d)))
      (conditionPart "HAVING".toList gss) :=
    spellsAll_conditionPart rfl (by decide) hgroup
  have hlimit : SpellsAll (q.limit.toList.map d.limit) (q.limit.toList.map d.limitWords) := by
    rw [SpellsAll, List.forall₂_map_left_iff, List.forall₂_map_right_iff, List.forall₂_same]
    exact fun n _ => spells_limitWords n
  have hsource : SpellsAll ["FROM " ++ d.quoteName q.source]
      [["FROM".toList, (d.quoteName q.source).toList]] := spellsAll_source q.source
  have hgroupBy : SpellsAll (Dialect.clause "GROUP BY " ", " (q.groupBy.map d.reference))
      (d.keyPart q.groupBy) := spellsAll_keyPart q.groupBy
  -- the clauses in the order in which they are written
  have hrows := List.rel_append (List.rel_append (List.rel_append hselect hsource) hjoin) hwhere
  have hgroups := List.rel_append (List.rel_append hrows hgroupBy) hhave
  have hall := List.rel_append (List.rel_append hgroups hos) hlimit
  let l : Layout d q :=
    { selected := ws
      joined := jss
      filtered := conditionPart "WHERE".toList fss
      grouped := conditionPart "HAVING".toList gss
      ordered := oss
      selected_ordinary := hordinary
      joined_told := hjs
      filtered_told := ⟨fss, hfs, rfl⟩
      grouped_told := ⟨gss, hgs, rfl⟩
      ordered_ordinary := hopeners }
  refine ⟨l, ?_⟩
  rw [htext]
  have hspells := spells_clauses hbetween hall (by simp)
  simpa [l, Layout.parts] using hspells

end Existence

end AskSql
