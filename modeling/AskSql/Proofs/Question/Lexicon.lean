import AskSql.Proofs.Reshape.Distinct
import AskSql.Proofs.Schema.Lookup
import AskSql.Proofs.Text.Sorted
import AskSql.Question.Recognize

/-!
# What words stand for

A word of the lexicon has the meanings that the schema declares for it, and where there are none
those of its first synonym that names something (`Lexicon.lookup_ofSchema`).  So whatever a word may
mean is at least as sure as a synonym (`Lexicon.synonymConfidence_le`), each column that it may mean
is one of the schema that the word stands for (`Lexicon.exists_of_column`), and no column that
declares the word is left out (`Lexicon.exists_of_declares`).
-/

namespace AskSql

deriving instance DecidableEq for Candidate

namespace Lexicon

open Text
open Name (surfaceForms)

variable {s : Schema} {l : Lexicon} {synonyms : List (String × String)} {word : String}
  {c : Candidate} {cs : List Candidate} {es : List (String × Candidate)}

@[simp] theorem sameTarget_self (c : Candidate) : sameTarget c c = true := by
  simp [sameTarget, sameFold]

theorem mem_of_mem_foldl_addMeaning (h : c ∈ cs.foldl addMeaning []) : c ∈ cs :=
  (sublist_foldl_addDistinct (fun new old => sameTarget old new) [] cs).subset h

/-- A meaning is left out only where the same is there already. -/
theorem exists_sameTarget_foldl_addMeaning (h : c ∈ cs) :
    ∃ d ∈ cs.foldl addMeaning [], sameTarget d c = true := by
  obtain ⟨d, hd, rfl | hsame⟩ :=
    exists_mem_foldl_addDistinct (fun new old => sameTarget old new) [] h
  · exact ⟨d, hd, sameTarget_self d⟩
  · exact ⟨d, hd, hsame⟩

/-! ### Words with their meanings -/

/-- The meanings that a word gets from some entries, in their order. -/
def meanings (es : List (String × Candidate)) (word : String) : List Candidate :=
  (es.filter fun e => e.1 == word).map Prod.snd

theorem mem_meanings : c ∈ meanings es word ↔ (word, c) ∈ es := by
  simp [meanings]

theorem inOrder_foldl_add (h : InOrder l) : InOrder (es.foldl add l) := by
  induction es generalizing l with
  | nil => exact h
  | cons e es ih => exact ih (inOrder_upsert h)

theorem lookup_foldl_add (h : InOrder l) :
    (es.foldl add l).lookup word =
      if meanings es word = [] then l.lookup word
      else some ((meanings es word).foldl addMeaning ((l.lookup word).getD [])) := by
  induction es generalizing l with
  | nil => rfl
  | cons e es ih =>
      rw [List.foldl_cons, ih (l := add l e) (inOrder_upsert h)]
      by_cases hword : e.1 = word
      · have hcons : meanings (e :: es) word = e.2 :: meanings es word := by
          rw [meanings, List.filter_cons_of_pos (by simpa using hword), List.map_cons, meanings]
        rw [hcons, if_neg (List.cons_ne_nil _ _), List.foldl_cons, add, ← hword,
          lookup_upsert_self h]
        split
        · next hnone => rw [hnone, List.foldl_nil]
        · rfl
      · have hcons : meanings (e :: es) word = meanings es word := by
          rw [meanings, List.filter_cons_of_neg (by simpa using hword), meanings]
        rw [hcons, add, lookup_upsert_of_ne (Ne.symm hword)]

/-- What a word means as a synonym for a name, if it is one and the name means something. -/
def synonymMeaning? (s : Schema) (word : String) (y : String × String) : Option (List Candidate) :=
  if Name.normalize y.1 = word ∧ targets s y.2 ≠ [] then some (targets s y.2) else none

theorem inOrder_addSynonym (h : InOrder l) (y : String × String) : InOrder (addSynonym s l y) := by
  unfold addSynonym
  dsimp only
  split
  · exact h
  · exact inOrder_upsert h

theorem lookup_addSynonym (h : InOrder l) (y : String × String) :
    (addSynonym s l y).lookup word = (l.lookup word <|> synonymMeaning? s word y) := by
  unfold addSynonym synonymMeaning?
  by_cases hword : Name.normalize y.1 = word
  · subst hword
    cases hbefore : l.lookup (Name.normalize y.1) with
    | some cs => simp [hbefore]
    | none =>
        by_cases hmeant : targets s y.2 = []
        · simp [hbefore, hmeant]
        · simp [hbefore, hmeant, lookup_upsert_self h]
  · dsimp only
    rw [if_neg (c := _ ∧ _) fun hboth => hword hboth.1]
    split
    · simp
    · simp [lookup_upsert_of_ne (Ne.symm hword)]

theorem inOrder_foldl_addSynonym (h : InOrder l) : InOrder (synonyms.foldl (addSynonym s) l) := by
  induction synonyms generalizing l with
  | nil => exact h
  | cons y synonyms ih => exact ih (inOrder_addSynonym h y)

theorem lookup_foldl_addSynonym (h : InOrder l) :
    (synonyms.foldl (addSynonym s) l).lookup word =
      (l.lookup word <|> synonyms.findSome? (synonymMeaning? s word)) := by
  induction synonyms generalizing l with
  | nil => simp
  | cons y synonyms ih =>
      rw [List.foldl_cons, ih (inOrder_addSynonym h y), lookup_addSynonym h, List.findSome?_cons]
      cases l.lookup word <;> cases synonymMeaning? s word y <;> rfl

/-- The words that a schema declares for its parts. -/
def declared (s : Schema) : List (String × Candidate) :=
  s.tables.flatMap tableEntries ++ s.functions.map functionEntry

/-- The meanings that a schema declares for a word, if there are any. -/
def declaredMeaning? (s : Schema) (word : String) : Option (List Candidate) :=
  if meanings (declared s) word = [] then none
  else some ((meanings (declared s) word).foldl addMeaning [])

theorem inOrder_ofSchema (s : Schema) (synonyms : List (String × String)) :
    InOrder (ofSchema s synonyms) :=
  inOrder_foldl_addSynonym (inOrder_foldl_add List.Pairwise.nil)

/-- What is declared comes before synonyms, and the first synonym that means something before the
others. -/
theorem lookup_ofSchema (s : Schema) (synonyms : List (String × String)) (word : String) :
    (ofSchema s synonyms).lookup word =
      (declaredMeaning? s word <|>
        (synonyms ++ commonSynonyms).findSome? (synonymMeaning? s word)) := by
  have hempty : InOrder ([] : Lexicon) := List.Pairwise.nil
  rw [ofSchema, lookup_foldl_addSynonym (inOrder_foldl_add hempty), lookup_foldl_add hempty]
  rfl

theorem lookup_of_declared (h : declaredMeaning? s word = some cs)
    (synonyms : List (String × String)) : (ofSchema s synonyms).lookup word = some cs := by
  rw [lookup_ofSchema, h]
  rfl

/-! ### Columns that a word stands for -/

section Columns

variable {t : Table} {column : Column} {kind : EntityKind} {name : String} {table : Option String}
  {more : List String}

/-- The word is a form of a name, or a synonym that is declared with it. -/
def Declares (name : String) (more : List String) (word : String) : Prop :=
  word ∈ surfaceForms name ∨ ∃ y ∈ more, Name.normalize y = word

theorem mem_entries (h : (word, c) ∈ entries kind name table more) :
    Declares name more word ∧ c.kind = kind ∧ c.name = name ∧ c.table = table ∧
      synonymConfidence ≤ c.confidence := by
  have hexact : synonymConfidence ≤ exactConfidence := by decide
  have hform : synonymConfidence ≤ formConfidence := by decide
  have hsynonym : synonymConfidence ≤ synonymConfidence := by decide
  obtain hmem | hmem := List.mem_append.1 h
  · obtain ⟨i, hi, heq⟩ := List.mem_mapIdx.1 hmem
    obtain ⟨rfl, rfl⟩ := Prod.mk.inj heq
    refine ⟨.inl (List.getElem_mem hi), rfl, rfl, rfl, ?_⟩
    split
    · exact hexact
    · exact hform
  · obtain ⟨y, hy, heq⟩ := List.mem_map.1 hmem
    obtain ⟨rfl, rfl⟩ := Prod.mk.inj heq
    exact ⟨.inr ⟨y, hy, rfl⟩, rfl, rfl, rfl, hsynonym⟩

theorem exists_mem_entries (kind : EntityKind) (table : Option String)
    (h : Declares name more word) : ∃ c, (word, c) ∈ entries kind name table more ∧ c.kind = kind ∧
      c.table = table := by
  obtain h | ⟨y, hy, rfl⟩ := h
  · obtain ⟨i, hi, rfl⟩ := List.getElem_of_mem h
    exact ⟨_, List.mem_append_left _ (List.mem_mapIdx.2 ⟨i, hi, rfl⟩), rfl, rfl⟩
  · exact ⟨_, List.mem_append_right _ (List.mem_map.2 ⟨y, hy, rfl⟩), rfl, rfl⟩

/-- The word stands for a column of a table: the column declares it, or it is a synonym for a name
under which the table finds the column. -/
structure MeansColumn (synonyms : List (String × String)) (word : String) (t : Table)
    (column : Column) : Prop where
  there : column ∈ t.columns
  stands : Declares column.name column.synonyms word ∨
    ∃ y ∈ synonyms ++ commonSynonyms, Name.normalize y.1 = word ∧ t.column? y.2 = some column

theorem exists_of_declared (h : (word, c) ∈ declared s) (hkind : c.kind = .column) :
    ∃ t ∈ s.tables, ∃ column ∈ t.columns, Declares column.name column.synonyms word ∧
      c.name = column.name ∧ c.table = some t.name := by
  obtain hmem | hmem := List.mem_append.1 h
  · obtain ⟨t, ht, hmem⟩ := List.mem_flatMap.1 hmem
    obtain hmem | hmem := List.mem_append.1 hmem
    · have htable := (mem_entries hmem).2.1
      rw [hkind] at htable
      cases htable
    · obtain ⟨column, hcolumn, hmem⟩ := List.mem_flatMap.1 hmem
      obtain ⟨hdeclares, -, hname, htable, -⟩ := mem_entries hmem
      exact ⟨t, ht, column, hcolumn, hdeclares, hname, htable⟩
  · obtain ⟨f, -, heq⟩ := List.mem_map.1 hmem
    rw [← (Prod.mk.inj heq).2] at hkind
    cases hkind

theorem exists_of_targets {name : String} (h : c ∈ targets s name) (hkind : c.kind = .column) :
    ∃ t ∈ s.tables, ∃ column, t.column? name = some column ∧ c.name = column.name ∧
      c.table = some t.name := by
  unfold targets at h
  split at h
  · obtain rfl := List.mem_singleton.1 h
    cases hkind
  · obtain ⟨t, ht, hc⟩ := List.mem_filterMap.1 h
    obtain ⟨column, hcolumn, rfl⟩ := Option.map_eq_some_iff.1 hc
    exact ⟨t, Schema.mem_of_mem_tablesWithColumn ht, column, hcolumn, rfl, rfl⟩

/-- The meanings of a word are declared, or those of a synonym. -/
theorem lookup_cases (h : (ofSchema s synonyms).lookup word = some cs) :
    (∀ c ∈ cs, (word, c) ∈ declared s) ∨
      ∃ y ∈ synonyms ++ commonSynonyms, Name.normalize y.1 = word ∧ cs = targets s y.2 := by
  rw [lookup_ofSchema, Option.orElse_eq_some] at h
  obtain h | ⟨-, h⟩ := h
  · unfold declaredMeaning? at h
    split at h
    · cases h
    · obtain rfl := Option.some.inj h
      exact .inl fun c hc => mem_meanings.1 (mem_of_mem_foldl_addMeaning hc)
  · obtain ⟨y, hy, hmeaning⟩ := List.exists_of_findSome?_eq_some h
    unfold synonymMeaning? at hmeaning
    split at hmeaning
    · next hboth => exact .inr ⟨y, hy, hboth.1, (Option.some.inj hmeaning).symm⟩
    · cases hmeaning

/-- A column that a word may mean is one of the schema for which the word stands. -/
theorem exists_of_column (h : (ofSchema s synonyms).lookup word = some cs) (hc : c ∈ cs)
    (hkind : c.kind = .column) :
    ∃ t ∈ s.tables, ∃ column, MeansColumn synonyms word t column ∧ c.name = column.name ∧
      c.table = some t.name := by
  obtain hdeclared | ⟨y, hy, hword, hmeant⟩ := lookup_cases h
  · obtain ⟨t, ht, column, hcolumn, hdeclares, hnames⟩ := exists_of_declared (hdeclared c hc) hkind
    exact ⟨t, ht, column, ⟨hcolumn, .inl hdeclares⟩, hnames⟩
  · obtain ⟨t, ht, column, hcolumn, hnames⟩ := exists_of_targets (hmeant ▸ hc) hkind
    exact ⟨t, ht, column, ⟨Table.mem_of_column? hcolumn, .inr ⟨y, hy, hword, hcolumn⟩⟩, hnames⟩

/-- A column that declares a word is among those that the word may mean. -/
theorem exists_of_declares (h : (ofSchema s synonyms).lookup word = some cs) (ht : t ∈ s.tables)
    (hcolumn : column ∈ t.columns) (hdeclares : Declares column.name column.synonyms word) :
    ∃ c ∈ cs, c.kind = .column ∧ c.table = some t.name := by
  obtain ⟨c, hc, hkind, htable⟩ :=
    exists_mem_entries .column (some t.name) hdeclares
  have hmem : c ∈ meanings (declared s) word := by
    refine mem_meanings.2 (List.mem_append_left _ (List.mem_flatMap.2 ⟨t, ht, ?_⟩))
    exact List.mem_append_right _ (List.mem_flatMap.2 ⟨column, hcolumn, hc⟩)
  rw [lookup_ofSchema, declaredMeaning?, if_neg (List.ne_nil_of_mem hmem)] at h
  obtain rfl := Option.some.inj h
  obtain ⟨d, hd, hsame⟩ := exists_sameTarget_foldl_addMeaning hmem
  simp only [sameTarget, Bool.and_eq_true, beq_iff_eq] at hsame
  exact ⟨d, hd, hsame.1.1.trans hkind, hsame.2.trans htable⟩

theorem confidence_of_targets (h : c ∈ targets s name) : c.confidence = synonymConfidence := by
  unfold targets at h
  split at h
  · obtain rfl := List.mem_singleton.1 h
    rfl
  · obtain ⟨t, -, hc⟩ := List.mem_filterMap.1 h
    obtain ⟨column, -, rfl⟩ := Option.map_eq_some_iff.1 hc
    rfl

theorem synonymConfidence_le_of_declared (h : (word, c) ∈ declared s) :
    synonymConfidence ≤ c.confidence := by
  obtain hmem | hmem := List.mem_append.1 h
  · obtain ⟨t, -, hmem⟩ := List.mem_flatMap.1 hmem
    obtain hmem | hmem := List.mem_append.1 hmem
    · exact (mem_entries hmem).2.2.2.2
    · obtain ⟨column, -, hmem⟩ := List.mem_flatMap.1 hmem
      exact (mem_entries hmem).2.2.2.2
  · obtain ⟨f, -, heq⟩ := List.mem_map.1 hmem
    have hexact : c.confidence = exactConfidence := by rw [← (Prod.mk.inj heq).2]
    rw [hexact]
    decide

/-- Whatever a word may mean is at least as sure as a synonym. -/
theorem synonymConfidence_le (h : (ofSchema s synonyms).lookup word = some cs) (hc : c ∈ cs) :
    synonymConfidence ≤ c.confidence := by
  obtain hdeclared | ⟨y, -, -, hmeant⟩ := lookup_cases h
  · exact synonymConfidence_le_of_declared (hdeclared c hc)
  · rw [confidence_of_targets (hmeant ▸ hc)]
    decide

end Columns

end Lexicon

end AskSql
