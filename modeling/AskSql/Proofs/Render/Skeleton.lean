import AskSql.Proofs.Render.Layout

/-!
# Skeleton of a query

The skeleton of a query is what the clauses of its statement show of it: the source, the joins, the
texts of the conditions, the columns of the groups, the limit, and whether rows are selected once
each.  Queries with the same text have the same skeleton (`render_determines_skeleton`), whatever
stands in their names and texts:

* the text of a query spells the words of a layout (`exists_layout_of_rawFree`);
* the words determine the parts of the layout (`Layout.parts_eq`);
* each part determines what it shows of the query (`Layout.skeleton_eq`).

What is selected and what it is ordered by is not part of the skeleton.
-/

namespace AskSql

open Words

/-- What the clause of a join shows of it. -/
structure Join.Skeleton where
  kind : JoinKind
  left : Reference
  right : Reference
  conditions : List String

/-- What the clauses of a query show of it. -/
structure Query.Skeleton where
  source : String
  joins : List Join.Skeleton
  filters : List String
  groupBy : List Reference
  having : List String
  limit : Option Nat
  distinct : Bool

/-- The skeleton of a join; the labels of its columns are not part of it. -/
def Join.skeleton (d : Dialect) (j : Join) : Except Failure Join.Skeleton := do
  let conditions ← d.conditionTexts j.conditions
  return ⟨j.kind, j.left.unlabelled, j.right.unlabelled, conditions⟩

/-- The skeleton of a query; the labels of its columns are not part of it. -/
def Query.skeleton (d : Dialect) (q : Query) : Except Failure Query.Skeleton := do
  let joins ← q.joins.mapM (Join.skeleton d)
  let filters ← d.conditionTexts q.filters
  let having ← d.conditionTexts q.having
  return ⟨q.source, joins, filters, q.groupBy.map Reference.unlabelled, having, q.limit,
    q.distinct⟩

/-! ### The text of a query has a layout -/

section Spoken

variable (d : Dialect)

mutual

/-- A condition without raw pieces is made of the words of a condition. -/
theorem spoken_condition : ∀ c : Condition, c.isRawFree = true →
    ∀ s, Statement.condition d c = .ok s → IsConditionText (s.inline d)
  | ⟨lhs, op, rhs⟩, hraw, s, h => by
      simp only [Condition.isRawFree, Bool.and_eq_true] at hraw
      exact isConditionText_of_closed d hraw.1 (closed_subquery rhs hraw.2) h

/-- The text of a query that a right side is leaves no mark and no bracket open. -/
theorem closed_subquery : ∀ rhs : Comparand, rhs.isRawFree = true →
    ∀ q, rhs = .subquery q → ∀ t, Statement.select d " " q = .ok t →
      Closed true (t.inline d).toList
  | .subquery q, hraw, _, rfl, t, ht => by
      rw [Comparand.isRawFree] at hraw
      -- inside of a condition a query stands on one line, however the outer one is written
      obtain ⟨l, hl⟩ := exists_layout_of_rawFree (Or.inl rfl) q hraw t ht
      exact hl.closed
  | .literal _, _, _, h, _, _ | .list _, _, _, h, _, _ | .range _ _, _, _, h, _, _
  | .null, _, _, h, _, _ | .daysAgo _, _, _, h, _, _ | .column _, _, _, h, _, _ => by
      cases h

/-- Conditions without raw pieces are made of the words of conditions. -/
theorem spoken_conditions : ∀ cs : List Condition, Condition.allRawFree cs = true → Spoken d cs
  | [], _ => by
      intro c hc
      cases hc
  | c :: cs, hraw => by
      simp only [Condition.allRawFree, Bool.and_eq_true] at hraw
      rw [Spoken, List.forall_mem_cons]
      exact ⟨spoken_condition c hraw.1, spoken_conditions cs hraw.2⟩

/-- So are those behind joins. -/
theorem spoken_joins : ∀ js : List Join, Join.allRawFree js = true →
    ∀ j ∈ js, Spoken d j.conditions
  | [], _ => by
      intro j hj
      cases hj
  | ⟨kind, left, right, cs⟩ :: js, hraw => by
      simp only [Join.allRawFree, Bool.and_eq_true] at hraw
      rw [List.forall_mem_cons]
      exact ⟨spoken_conditions cs hraw.1, spoken_joins js hraw.2⟩

/-- The text of a query without raw pieces spells the clauses of a layout. -/
theorem exists_layout_of_rawFree {between : String} (hbetween : IsBreak between) :
    ∀ q : Query, q.isRawFree = true → ∀ s, Statement.select d between q = .ok s →
      ∃ l : Layout d q, Spells isGap (s.inline d).toList l.parts.flatten.flatten
  | ⟨source, is, js, filters, groupBy, having, orderBy, limit, distinct⟩, hraw, s, h => by
      simp only [Query.isRawFree, Bool.and_eq_true, List.all_eq_true] at hraw
      obtain ⟨⟨⟨⟨hitems, hjoins⟩, hfilters⟩, hhaving⟩, horder⟩ := hraw
      exact exists_layout hbetween hitems (spoken_joins js hjoins)
        (spoken_conditions filters hfilters) (spoken_conditions having hhaving) horder h

end

end Spoken

/-! ### The parts of a layout are clauses in their places -/

section Places

variable {d : Dialect}

theorem isCondition_matching (j : Join) : IsCondition (d.matching j) := by
  have hequals : IsOrdinary "=".toList := by decide
  refine ⟨_, _, rfl, (d.isWord_reference j.left).2, Or.inl ?_⟩
  simpa using ⟨hequals, (d.isWord_reference j.right).2⟩

theorem JoinTold.isClause {j : Join} {clause : Phrase} (h : JoinTold d j clause) :
    IsClause 2 clause := by
  obtain ⟨wss, ⟨_, _, _, hwss⟩, rfl⟩ := h
  have hopener : openers.lookup j.kind.opener = some 2 := by
    cases j.kind <;> decide
  have hjoin : IsInner "JOIN".toList := by decide
  have hon : IsInner "ON".toList := by decide
  have hconditions : ∀ ws ∈ d.matching j :: wss, IsCondition ws :=
    List.forall_mem_cons.2 ⟨isCondition_matching j, hwss⟩
  refine ⟨_, _, rfl, hopener, ?_⟩
  simp only [List.forall_mem_cons]
  exact ⟨hjoin, (d.isWord_quoteName j.right.table).2.isInner, hon,
    isInner_conjunction hconditions⟩

theorem isClause_conditionPart {opener : Word} {n : Nat} (hplace : openers.lookup opener = some n)
    {wss : List Phrase} (h : ∀ ws ∈ wss, IsCondition ws) :
    ∀ s ∈ conditionPart opener wss, IsClause n s := by
  cases wss with
  | nil => simp [conditionPart]
  | cons ws wss =>
      rw [conditionPart, List.forall_mem_singleton]
      · exact ⟨_, _, rfl, hplace, isInner_conjunction h⟩
      · simp

theorem isClause_keyPart (keys : List Reference) : ∀ s ∈ d.keyPart keys, IsClause 4 s := by
  cases keys with
  | nil => simp [Dialect.keyPart]
  | cons k ks =>
      have hby : IsInner "BY".toList := by decide
      have hkeys : ∀ ws ∈ (k :: ks).map (fun k => [(d.reference k).toList]),
          ∀ w ∈ ws, IsOrdinary w := by
        rw [List.forall_mem_map]
        intro r _
        simpa using (d.isWord_reference r).2
      rw [Dialect.keyPart, List.forall_mem_singleton]
      · refine ⟨_, _, rfl, by decide, List.forall_mem_cons.2 ⟨hby, ?_⟩⟩
        exact fun w hw => (ordinary_listing hkeys w hw).isInner
      · simp

theorem isClause_limitWords (n : Nat) : IsClause 7 (d.limitWords n) := by
  have hnumber := (isWord_nat n).2.isInner
  cases d with
  | ansi =>
      have hfirst : IsInner "FIRST".toList := by decide
      have hrows : IsInner "ROWS".toList := by decide
      have honly : IsInner "ONLY".toList := by decide
      refine ⟨_, _, rfl, by decide, ?_⟩
      simp only [List.forall_mem_cons]
      exact ⟨hfirst, hnumber, hrows, honly, by simp⟩
  | sqlite | postgres | mySql => exact ⟨_, _, rfl, by decide, by simpa using hnumber⟩

/-- The parts of a layout stand in the order of places. -/
theorem Layout.inPlaces {q : Query} (l : Layout d q) : InPlaces 0 l.parts := by
  have hselect : IsClause 0
      ("SELECT".toList :: ((if q.distinct then [distinguisher] else []) ++ l.selected)) := by
    have hdistinguisher : IsInner distinguisher := by decide
    refine ⟨_, _, rfl, by decide, ?_⟩
    rw [List.forall_mem_append]
    constructor
    · cases q.distinct with
      | false => simp
      | true => simpa using hdistinguisher
    · exact fun w hw => (l.selected_ordinary w hw).isInner
  have hsource : IsClause 1 ["FROM".toList, (d.quoteName q.source).toList] := by
    have hname := (d.isWord_quoteName q.source).2.isInner
    exact ⟨_, _, rfl, by decide, by simpa using hname⟩
  have hjoins : ∀ s ∈ l.joined, IsClause 2 s := by
    have htold := l.joined_told
    revert htold
    generalize q.joins = js
    generalize l.joined = clauses
    intro htold
    induction htold with
    | nil => simp
    | cons hhead _ ih => exact List.forall_mem_cons.2 ⟨hhead.isClause, ih⟩
  have hfilters : ∀ s ∈ l.filtered, IsClause 3 s := by
    obtain ⟨wss, ⟨_, _, _, hwss⟩, hfiltered⟩ := l.filtered_told
    rw [hfiltered]
    exact isClause_conditionPart (by decide) hwss
  have hhaving : ∀ s ∈ l.grouped, IsClause 5 s := by
    obtain ⟨wss, ⟨_, _, _, hwss⟩, hgrouped⟩ := l.grouped_told
    rw [hgrouped]
    exact isClause_conditionPart (by decide) hwss
  have horder : ∀ s ∈ l.ordered, IsClause 6 s := by
    intro s hs
    obtain ⟨ws, rfl, hordinary⟩ := l.ordered_ordinary s hs
    exact ⟨_, _, rfl, by decide, fun w hw => (hordinary w hw).isInner⟩
  have hlimit : ∀ s ∈ q.limit.toList.map d.limitWords, IsClause 7 s := by
    rw [List.forall_mem_map]
    exact fun n _ => isClause_limitWords n
  exact ⟨by simpa using hselect, by simpa using hsource, hjoins, hfilters,
    isClause_keyPart q.groupBy, hhaving, horder, hlimit, trivial⟩

/-- The words of a statement determine the parts of its layout. -/
theorem Layout.parts_eq {q q' : Query} (l : Layout d q) (l' : Layout d q') {cs : List Char}
    (h : Spells isGap cs l.parts.flatten.flatten)
    (h' : Spells isGap cs l'.parts.flatten.flatten) : l.parts = l'.parts := by
  have hwords : l.parts.flatten.flatten = l'.parts.flatten.flatten :=
    h.words_eq.symm.trans h'.words_eq
  exact parts_unique rfl l.inPlaces l'.inPlaces hwords

end Places

/-! ### Each part determines what it shows -/

section Shown

variable {d : Dialect}

theorem spellsAll_unique {ts ts' : List String} {wss : List Phrase} (h : SpellsAll ts wss)
    (h' : SpellsAll ts' wss) : ts = ts' := by
  induction h generalizing ts' with
  | nil =>
      cases h'
      rfl
  | cons hhead _ ih =>
      cases h' with
      | cons hhead' htail' =>
          have htext := String.toList_inj.1 (hhead.text_unique hhead')
          rw [htext, ih htail']

/-- The words of conditions determine their texts. -/
theorem ToldAll.texts_eq {cs cs' : List Condition} {wss : List Phrase} (h : ToldAll d cs wss)
    (h' : ToldAll d cs' wss) :
    ∃ ts, d.conditionTexts cs = .ok ts ∧ d.conditionTexts cs' = .ok ts := by
  obtain ⟨ts, hts, hspells, -⟩ := h
  obtain ⟨ts', hts', hspells', -⟩ := h'
  have htexts : ts = ts' := spellsAll_unique hspells hspells'
  subst htexts
  exact ⟨ts, hts, hts'⟩

theorem conditionPart_unique {opener : Word} {wss vss : List Phrase}
    (hw : ∀ ws ∈ wss, IsCondition ws) (hv : ∀ vs ∈ vss, IsCondition vs)
    (h : conditionPart opener wss = conditionPart opener vss) : wss = vss := by
  cases wss with
  | nil =>
      cases vss with
      | nil => rfl
      | cons vs vss => simp [conditionPart] at h
  | cons ws wss =>
      cases vss with
      | nil => simp [conditionPart] at h
      | cons vs vss =>
          have hwords : conjunction (ws :: wss) = conjunction (vs :: vss) := by
            simpa [conditionPart] using h
          exact conjunction_unique (by simp) (by simp) hw hv hwords

/-- The clause of some conditions determines their texts. -/
theorem conditionTexts_of_part {opener : Word} {cs cs' : List Condition} {part : List Phrase}
    (h : ∃ wss, ToldAll d cs wss ∧ part = conditionPart opener wss)
    (h' : ∃ wss, ToldAll d cs' wss ∧ part = conditionPart opener wss) :
    ∃ ts, d.conditionTexts cs = .ok ts ∧ d.conditionTexts cs' = .ok ts := by
  obtain ⟨wss, htold, hpart⟩ := h
  obtain ⟨vss, htold', hpart'⟩ := h'
  have hwss : ∀ ws ∈ wss, IsCondition ws := by
    obtain ⟨_, _, _, hwss⟩ := htold
    exact hwss
  have hvss : ∀ vs ∈ vss, IsCondition vs := by
    obtain ⟨_, _, _, hvss⟩ := htold'
    exact hvss
  have hwords : wss = vss := conditionPart_unique hwss hvss (hpart.symm.trans hpart')
  subst hwords
  exact htold.texts_eq htold'

theorem opener_unique {k k' : JoinKind} (h : k.opener = k'.opener) : k = k' := by
  have hne : JoinKind.inner.opener ≠ JoinKind.left.opener := by decide
  cases k <;> cases k'
  · rfl
  · exact absurd h hne
  · exact absurd h.symm hne
  · rfl

/-- The clause of a join determines its skeleton. -/
theorem JoinTold.skeleton_eq {j j' : Join} {clause : Phrase} (h : JoinTold d j clause)
    (h' : JoinTold d j' clause) : ∃ k, j.skeleton d = .ok k ∧ j'.skeleton d = .ok k := by
  obtain ⟨wss, htold, rfl⟩ := h
  obtain ⟨vss, htold', hclause⟩ := h'
  have hwss : ∀ ws ∈ d.matching j :: wss, IsCondition ws := by
    obtain ⟨_, _, _, hwss⟩ := htold
    exact List.forall_mem_cons.2 ⟨isCondition_matching j, hwss⟩
  have hvss : ∀ vs ∈ d.matching j' :: vss, IsCondition vs := by
    obtain ⟨_, _, _, hvss⟩ := htold'
    exact List.forall_mem_cons.2 ⟨isCondition_matching j', hvss⟩
  simp only [List.cons.injEq, true_and] at hclause
  obtain ⟨hopener, -, hwords⟩ := hclause
  -- the words between the conditions are found again, so the texts are the same
  have hconditions := conjunction_unique (by simp) (by simp) hwss hvss hwords
  obtain ⟨hmatching, hextra⟩ := List.cons.inj hconditions
  subst hextra
  simp only [Dialect.matching, List.cons.injEq, true_and, and_true] at hmatching
  have hkind := opener_unique hopener
  have hleft := d.reference_unique hmatching.1
  have hright := d.reference_unique hmatching.2
  obtain ⟨ts, hts, hts'⟩ := htold.texts_eq htold'
  refine ⟨⟨j.kind, j.left.unlabelled, j.right.unlabelled, ts⟩, ?_, ?_⟩
  · rw [Join.skeleton, hts]
    rfl
  · rw [Join.skeleton, hts', hkind, hleft, hright]
    rfl

/-- The clauses of joins determine their skeletons. -/
theorem skeletons_of_joined {js js' : List Join} {clauses : List Phrase}
    (h : List.Forall₂ (JoinTold d) js clauses) (h' : List.Forall₂ (JoinTold d) js' clauses) :
    ∃ ks, js.mapM (Join.skeleton d) = .ok ks ∧ js'.mapM (Join.skeleton d) = .ok ks := by
  induction h generalizing js' with
  | nil =>
      cases h'
      exact ⟨[], rfl, rfl⟩
  | cons hhead _ ih =>
      cases h' with
      | cons hhead' htail' =>
          obtain ⟨k, hk, hk'⟩ := hhead.skeleton_eq hhead'
          obtain ⟨ks, hks, hks'⟩ := ih htail'
          refine ⟨k :: ks, ?_, ?_⟩
          · rw [List.mapM_cons, hk, hks]
            rfl
          · rw [List.mapM_cons, hk', hks']
            rfl

theorem listing_ne_nil (w : Word) (ws : Phrase) : listing ((w :: ws).map fun v => [v]) ≠ [] := by
  cases ws with
  | nil => simp [listing]
  | cons v vs => simp [listing, attach]

theorem listing_unique {ws vs : Phrase}
    (h : (listing (ws.map fun v => [v])) = listing (vs.map fun v => [v])) : ws = vs := by
  induction ws generalizing vs with
  | nil =>
      cases vs with
      | nil => rfl
      | cons v vs => exact absurd h.symm (listing_ne_nil v vs)
  | cons w ws ih =>
      cases vs with
      | nil => exact absurd h (listing_ne_nil w ws)
      | cons v vs =>
          cases ws with
          | nil =>
              cases vs with
              | nil => simpa [listing] using h
              | cons v' vs =>
                  -- one list ends where the other one has more keys
                  have hrest := (List.cons.inj h).2
                  exact absurd hrest.symm (listing_ne_nil v' vs)
          | cons w' ws =>
              cases vs with
              | nil =>
                  have hrest := (List.cons.inj h).2
                  exact absurd hrest (listing_ne_nil w' ws)
              | cons v' vs =>
                  obtain ⟨hword, hrest⟩ := List.cons.inj h
                  rw [List.append_cancel_right hword, ih hrest]

/-- The clause of keys determines them, their labels aside. -/
theorem keyPart_unique {ks ks' : List Reference} (h : d.keyPart ks = d.keyPart ks') :
    ks.map Reference.unlabelled = ks'.map Reference.unlabelled := by
  have hwords : ks.map (fun k => (d.reference k).toList) =
      ks'.map fun k => (d.reference k).toList := by
    cases ks with
    | nil =>
        cases ks' with
        | nil => rfl
        | cons k' ks' => simp [Dialect.keyPart] at h
    | cons k ks =>
        cases ks' with
        | nil => simp [Dialect.keyPart] at h
        | cons k' ks' =>
            simp only [Dialect.keyPart, List.cons.injEq, true_and, and_true] at h
            apply listing_unique
            rw [List.map_map, List.map_map]
            exact h
  clear h
  induction ks generalizing ks' with
  | nil =>
      rw [List.map_nil, eq_comm, List.map_eq_nil_iff] at hwords
      rw [hwords]
  | cons k ks ih =>
      cases ks' with
      | nil => cases hwords
      | cons k' ks' =>
          obtain ⟨hword, hrest⟩ := List.cons.inj hwords
          rw [List.map_cons, List.map_cons, d.reference_unique hword, ih hrest]

theorem limitWords_unique {n k : Nat} (h : d.limitWords n = d.limitWords k) : n = k := by
  apply toString_nat_unique
  cases d with
  | ansi =>
      simp only [Dialect.limitWords, List.cons.injEq, true_and, and_true] at h
      exact h
  | sqlite | postgres | mySql =>
      simp only [Dialect.limitWords, List.cons.injEq, true_and, and_true] at h
      exact h

theorem limit_unique {n? k? : Option Nat}
    (h : n?.toList.map d.limitWords = k?.toList.map d.limitWords) : n? = k? := by
  cases n? with
  | none =>
      cases k? with
      | none => rfl
      | some k => cases h
  | some n =>
      cases k? with
      | none => cases h
      | some k => rw [limitWords_unique (List.cons.inj h).1]

theorem distinct_unique {b b' : Bool} {ws vs : Phrase} (hws : ∀ w ∈ ws, IsOrdinary w)
    (hvs : ∀ v ∈ vs, IsOrdinary v)
    (h : (if b then [distinguisher] else []) ++ ws = (if b' then [distinguisher] else []) ++ vs) :
    b = b' := by
  -- the word that makes rows distinct is not an ordinary one
  have hno : ∀ {us : Phrase}, (∀ u ∈ us, IsOrdinary u) → distinguisher ∉ us :=
    fun hus hmem => (hus _ hmem).ne_distinguisher rfl
  cases b with
  | false =>
      cases b' with
      | false => rfl
      | true =>
          have hmem : distinguisher ∈ ws := by
            simp only [Bool.false_eq_true, if_false, if_true, List.nil_append] at h
            rw [h]
            simp
          exact absurd hmem (hno hws)
  | true =>
      cases b' with
      | false =>
          have hmem : distinguisher ∈ vs := by
            simp only [Bool.false_eq_true, if_false, if_true, List.nil_append] at h
            rw [← h]
            simp
          exact absurd hmem (hno hvs)
      | true => rfl

/-- The parts of a layout determine the skeleton. -/
theorem Layout.skeleton_eq {q q' : Query} (l : Layout d q) (l' : Layout d q')
    (h : l.parts = l'.parts) : ∃ k, q.skeleton d = .ok k ∧ q'.skeleton d = .ok k := by
  simp only [Layout.parts, List.cons.injEq, true_and, and_true] at h
  -- the part of the order shows nothing of the skeleton
  obtain ⟨hselected, hsource, hjoined, hfiltered, hkeys, hgrouped, -, hlimit⟩ := h
  have hdistinct := distinct_unique l.selected_ordinary l'.selected_ordinary hselected
  have hname := d.quoteName_unique hsource
  obtain ⟨joins, hjoins, hjoins'⟩ := skeletons_of_joined l.joined_told (hjoined ▸ l'.joined_told)
  obtain ⟨filters, hfilters, hfilters'⟩ :=
    conditionTexts_of_part l.filtered_told (hfiltered ▸ l'.filtered_told)
  obtain ⟨having, hhaving, hhaving'⟩ :=
    conditionTexts_of_part l.grouped_told (hgrouped ▸ l'.grouped_told)
  refine ⟨⟨q.source, joins, filters, q.groupBy.map Reference.unlabelled, having, q.limit,
    q.distinct⟩, ?_, ?_⟩
  · rw [Query.skeleton, hjoins, hfilters, hhaving]
    rfl
  · rw [Query.skeleton, hjoins', hfilters', hhaving', hname, keyPart_unique hkeys,
      limit_unique hlimit, hdistinct]
    rfl

end Shown

namespace Query

/-- A text that is written for a query spells the words of a layout of it. -/
theorem exists_layout_of_render {q : Query} {d : Dialect} {pretty : Bool} {sql : String}
    (hraw : q.isRawFree = true) (h : q.render d pretty = .ok sql) :
    ∃ l : Layout d q, Spells isGap sql.toList l.parts.flatten.flatten := by
  have hbreak : IsBreak (if pretty then "\n" else " ") := by
    cases pretty with
    | false => exact Or.inl rfl
    | true => exact Or.inr rfl
  rw [render, renderAs_eq] at h
  cases hvalid : q.validate with
  | error e =>
      rw [hvalid] at h
      cases h
  | ok _ =>
      rw [hvalid] at h
      cases hselect : Statement.select d (if pretty then "\n" else " ") q with
      | error e =>
          rw [hselect] at h
          cases h
      | ok s =>
          rw [hselect] at h
          obtain rfl := Except.ok.inj h
          exact exists_layout_of_rawFree d hbreak q hraw s hselect

/-- The text that is written for a query determines its skeleton: the source, the joins, the texts
of the conditions, the columns of the groups, the limit, and whether rows are selected once each.
No name and no text in the query can change this, whatever stands in it. -/
theorem render_determines_skeleton {q q' : Query} {d : Dialect} {pretty : Bool} {sql : String}
    (hraw : q.isRawFree = true) (hraw' : q'.isRawFree = true)
    (h : q.render d pretty = .ok sql) (h' : q'.render d pretty = .ok sql) :
    ∃ k, q.skeleton d = .ok k ∧ q'.skeleton d = .ok k := by
  obtain ⟨l, hl⟩ := exists_layout_of_render hraw h
  obtain ⟨l', hl'⟩ := exists_layout_of_render hraw' h'
  exact l.skeleton_eq l' (l.parts_eq l' hl hl')

/-- A mark and a keyword in the name of a column do not end its quotation.  The label of a column by
which rows are grouped is not seen in the text. -/
theorem render_determines_skeleton_romanOrders :
    let q := { romanOrders with groupBy := [⟨"customers", "name\x60 LIMIT 1", none⟩] }
    let q' := { romanOrders with groupBy := [⟨"customers", "name\x60 LIMIT 1", some "name"⟩] }
    ∃ sql, q.render .mySql true = .ok sql ∧ q'.render .mySql true = .ok sql ∧
      ∃ k, q.skeleton .mySql = .ok k ∧ q'.skeleton .mySql = .ok k := by
  intro q q'
  have h : q.render .mySql true = .ok _ := rfl
  have h' : q'.render .mySql true = .ok _ := rfl
  exact ⟨_, h, h', render_determines_skeleton rfl rfl h h'⟩

end Query

end AskSql
