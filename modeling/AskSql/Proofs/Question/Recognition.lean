import AskSql.Proofs.Question.Lexicon

/-!
# What tokens mean

A token that means something is a name of the lexicon, or like one, or what its neighbours or its
own kind tell.  The last two leave no table open: an entity that is a column of several tables was
looked up under a word that the token reads as (`Entity.fresh_of_recognize?`), and its tables are
those of the columns among the candidates (`Entity.Shared`).
-/

namespace AskSql

namespace Lexicon

open Text

variable {l : Lexicon} {threshold score : Float} {word key : String} {cs : List Candidate}

/-- What is most like a word is in the lexicon, and is like enough. -/
theorem closest?_spec (h : l.closest? threshold word = some (key, cs, score)) :
    (key, cs) ∈ l ∧ score = Similarity.similarity word key ∧ threshold ≤ score := by
  refine List.foldlRecOn
    (motive := fun (best : Option (String × List Candidate × Float)) => ∀ found ∈ best,
      (found.1, found.2.1) ∈ l ∧ found.2.2 = Similarity.similarity word found.1 ∧
        threshold ≤ found.2.2)
    l _ (by simp) (fun best hbest entry hentry => ?_) _ h
  dsimp only
  split
  · next hbetter =>
      intro found hfound
      obtain rfl := Option.mem_some.1 hfound
      rw [Bool.and_eq_true, decide_eq_true_eq] at hbetter
      exact ⟨hentry, rfl, hbetter.1⟩
  · exact hbest

end Lexicon

namespace Entity

open Text Decimal

variable {l : Lexicon} {t : Token} {cs : List Candidate} {c : Candidate} {scale threshold : Float}
  {e : Entity}

/-! ### Notes -/

theorem note?_withNote_of_ne {name other : String} (h : name ≠ other) (e : Entity)
    (value : String) : (e.withNote other value).note? name = e.note? name :=
  lookup_upsert_of_ne h

theorem candidates_withNote {name : String} (h : "candidates" ≠ name) (e : Entity)
    (value : String) : (e.withNote name value).candidates = e.candidates := by
  rw [candidates, note?_withNote_of_ne h, candidates]

/-! ### The meaning of a word -/

theorem exists_of_mem_owners {name : String} (h : name ∈ owners cs) :
    ∃ c ∈ cs, c.table = some name :=
  List.mem_filterMap.1 ((sublist_foldl_addDistinct (fun new old => sameFold old new) [] _).subset h)

/-- The table of a column is one of the owners, up to case. -/
theorem exists_mem_owners {name : String} (hc : c ∈ cs) (htable : c.table = some name) :
    ∃ owner ∈ owners cs, sameFold owner name = true := by
  obtain ⟨owner, howner, rfl | hsame⟩ := exists_mem_foldl_addDistinct
    (fun new old => sameFold old new) [] (List.mem_filterMap.2 ⟨c, hc, htable⟩)
  · exact ⟨owner, howner, sameFold_self owner⟩
  · exact ⟨owner, howner, hsame⟩

theorem apart_owners (cs : List Candidate) :
    (owners cs).Pairwise fun a b => sameFold a b = false :=
  pairwise_foldl_addDistinct _ List.Pairwise.nil

theorem mem_of_surest? (h : surest? cs = some c) : c ∈ cs := by
  cases cs with
  | nil => cases h
  | cons first rest =>
      obtain rfl := Option.some.inj h
      refine List.foldlRecOn rest _ List.mem_cons_self fun best hbest b hb => ?_
      split
      · exact hbest
      · exact List.mem_cons_of_mem first hb

/-- The surest of some candidates as the meaning of a token. -/
def ofBest (t : Token) (kind : EntityKind) (scale : Float) (best : Candidate) : Entity :=
  (ofToken t kind (smaller (best.confidence * scale) 1.0) best.found).named best.name

/-- What a token may mean by some candidates. -/
inductive Meant (t : Token) (cs : List Candidate) (scale : Float) : Entity → Prop
  | nothing (kind : EntityKind) : Meant t cs scale (ofToken t kind 0.0 "exact")
  | plain {kind : EntityKind} (best : Candidate) (hkind : kind ≠ .column) :
      Meant t cs scale (ofBest t kind scale best)
  | bound (best : Candidate) (table : String) :
      Meant t cs scale { ofBest t .column scale best with table := some table }
  | shared {best : Candidate} (hbest : best ∈ ofKind .column cs)
      (hseveral : (owners (ofKind .column cs)).length ≠ 1) :
      Meant t cs scale ((ofBest t .column scale best).withNote "candidates"
        (String.intercalate "," (owners (ofKind .column cs))))

theorem strongestKind_column (h : (strongestKind cs).1 = .column) :
    (strongestKind cs).2 = ofKind .column cs := by
  unfold strongestKind at h ⊢
  dsimp only at h ⊢
  split at h
  · cases h
  · split at h
    · next htables hcolumns => rw [if_neg htables, if_pos hcolumns]
    · cases h

theorem meant_ofCandidates (t : Token) (cs : List Candidate) (scale : Float) :
    Meant t cs scale (ofCandidates t cs scale) := by
  have hgroup : (strongestKind cs).1 = .column → (strongestKind cs).2 = ofKind .column cs :=
    strongestKind_column
  unfold ofCandidates
  generalize strongestKind cs = strongest at hgroup
  obtain ⟨kind, group⟩ := strongest
  dsimp only at hgroup ⊢
  split
  · exact .nothing kind
  · next best hbest =>
      split
      · next hkind =>
          obtain rfl : kind = .column := by simpa using hkind
          obtain rfl := hgroup rfl
          split
          · exact .bound best _
          · next hseveral =>
              refine .shared (mem_of_surest? hbest) fun hone => ?_
              obtain ⟨table, htable⟩ := List.length_eq_one_iff.1 hone
              exact hseveral table htable
      · next hkind => exact .plain best (by simpa using hkind)

/-- A token reads as a word of the lexicon, and to what share this is taken for sure. -/
inductive Reads (threshold : Float) (t : Token) : String → Float → Prop
  | exact {word : String}
      (hword : word ∈ [t.normalized, lowercase t.text, Name.wordsToSnake (lowercase t.text)]) :
      Reads threshold t word 1.0
  | like {word : String} (hlike : threshold ≤ Similarity.similarity t.normalized word) :
      Reads threshold t word (Similarity.similarity t.normalized word)

/-- The entity is a column for which candidates have several tables. -/
structure Shared (cs : List Candidate) (scale : Float) (e : Entity) : Prop where
  best : ∃ c ∈ ofKind .column cs, e.resolved = some c.name ∧
    e.confidence = smaller (c.confidence * scale) 1.0
  several : (owners (ofKind .column cs)).length ≠ 1
  candidates : e.candidates = split (· == ',') (String.intercalate "," (owners (ofKind .column cs)))

/-- What an entity is before it is known which tables are mentioned. -/
structure Fresh (l : Lexicon) (threshold : Float) (t : Token) (e : Entity) : Prop where
  unmarked : e.ambiguous = false
  text : e.text = t.text
  shared : e.kind = .column → e.table = none → e.candidates ≠ [] →
    ∃ word cs scale, Reads threshold t word scale ∧ l.lookup word = some cs ∧ Shared cs scale e

/-- A note of another name changes nothing of this. -/
theorem Fresh.withNote (h : Fresh l threshold t e) {name : String} (hname : "candidates" ≠ name)
    (value : String) : Fresh l threshold t (e.withNote name value) where
  unmarked := h.unmarked
  text := h.text
  shared hkind htable hcandidates := by
    rw [candidates_withNote hname] at hcandidates
    obtain ⟨word, cs, scale, hreads, hfound, hshared⟩ := h.shared hkind htable hcandidates
    exact ⟨word, cs, scale, hreads, hfound, hshared.best, hshared.several,
      (candidates_withNote hname e value).trans hshared.candidates⟩

/-- An entity without candidates, as far as it is told. -/
theorem Fresh.of_candidates (hunmarked : e.ambiguous = false) (htext : e.text = t.text)
    (hcandidates : e.kind = .column → e.candidates = []) : Fresh l threshold t e :=
  ⟨hunmarked, htext, fun hkind _ hne => absurd (hcandidates hkind) hne⟩

theorem candidates_ofToken (t : Token) (kind : EntityKind) (confidence : Float) (found : String) :
    (ofToken t kind confidence found).candidates = [] := by
  simp [candidates, note?, ofToken, List.lookup_cons]

theorem candidates_ofBest (t : Token) (kind : EntityKind) (scale : Float) (best : Candidate) :
    (ofBest t kind scale best).candidates = [] :=
  candidates_ofToken t kind (smaller (best.confidence * scale) 1.0) best.found

theorem Meant.fresh (h : Meant t cs scale e) {word : String}
    (hreads : Reads threshold t word scale) (hfound : l.lookup word = some cs) :
    Fresh l threshold t e := by
  cases h with
  | nothing kind => exact .of_candidates rfl rfl fun _ => candidates_ofToken t kind 0.0 "exact"
  | plain best hkind => exact .of_candidates rfl rfl fun hcolumn => absurd hcolumn hkind
  | bound best table =>
      exact .of_candidates rfl rfl fun _ => candidates_ofBest t .column scale best
  | @shared best hbest hseveral =>
      refine ⟨rfl, rfl, fun _ _ _ => ⟨word, cs, scale, hreads, hfound, ?_⟩⟩
      refine ⟨⟨best, hbest, rfl, rfl⟩, hseveral, ?_⟩
      have hnotes : InOrder (ofBest t .column scale best).notes := List.pairwise_singleton _ _
      rw [candidates, note?, withNote, lookup_upsert_self hnotes]
      rfl

theorem fresh_of_ofName? (h : ofName? l t = some e) : Fresh l threshold t e := by
  obtain ⟨cs, hcs, rfl⟩ := Option.map_eq_some_iff.1 h
  obtain ⟨word, hword, hfound⟩ := List.exists_of_findSome?_eq_some hcs
  exact (meant_ofCandidates t cs 1.0).fresh (.exact hword) hfound

theorem fresh_of_ofLikeName? (hl : InOrder l) (h : ofLikeName? l threshold t = some e) :
    Fresh l threshold t e := by
  unfold ofLikeName? at h
  split at h
  · cases h
  · obtain ⟨⟨word, cs, score⟩, hclosest, rfl⟩ := Option.map_eq_some_iff.1 h
    obtain ⟨hmem, rfl, hlike⟩ := Lexicon.closest?_spec hclosest
    have hfresh := (meant_ofCandidates t cs _).fresh (.like hlike) (Keyed.lookup_of_mem hl.nodup_words hmem)
    exact (hfresh.withNote (by decide) "fuzzy").withNote (by decide) word

theorem fresh_of_ofNeighbours? {before after : List Token}
    (h : ofNeighbours? before t after = some e) : Fresh l threshold t e := by
  unfold ofNeighbours? at h
  dsimp only at h
  split at h
  · obtain rfl := Option.some.inj h
    exact .of_candidates rfl rfl fun _ => candidates_ofToken t .table 0.5 "positional"
  · split at h
    · obtain rfl := Option.some.inj h
      exact .of_candidates rfl rfl fun _ => candidates_ofToken t .column 0.45 "positional"
    · cases h

theorem withSpan_eq (e : Entity) (wording : String) :
    ∃ notes, e.withSpan wording = { e with notes } := by
  unfold withSpan
  split
  · dsimp only
    split <;> exact ⟨_, rfl⟩
  · exact ⟨_, rfl⟩
  · split
    · next days months _ => cases months <;> exact ⟨_, rfl⟩
    · exact ⟨_, rfl⟩

/-- The kind of a token alone makes it no column. -/
theorem exists_of_ofTokenKind? (h : ofTokenKind? t = some e) :
    ∃ kind name notes, kind ≠ .column ∧
      e = { (ofToken t kind t.confidence "kind").named name with notes } := by
  unfold ofTokenKind? at h
  dsimp only at h
  cases hkind : t.kind <;> rw [hkind] at h <;> dsimp only at h
  case temporal =>
    obtain ⟨notes, hspan⟩ := withSpan_eq
      ((ofToken t .timeRange t.confidence "kind").named t.normalized) t.normalized
    rw [hspan] at h
    exact ⟨.timeRange, t.normalized, notes, by decide, (Option.some.inj h).symm⟩
  case aggregation =>
    obtain ⟨name, -, rfl⟩ := Option.map_eq_some_iff.1 h
    exact ⟨.aggregation, name, _, by decide, rfl⟩
  case comparison =>
    obtain ⟨name, -, rfl⟩ := Option.map_eq_some_iff.1 h
    exact ⟨.operator, name, _, by decide, rfl⟩
  all_goals first
    | exact ⟨_, _, _, by decide, (Option.some.inj h).symm⟩
    | cases h

theorem fresh_of_ofTokenKind? (h : ofTokenKind? t = some e) : Fresh l threshold t e := by
  obtain ⟨kind, name, notes, hkind, rfl⟩ := exists_of_ofTokenKind? h
  exact .of_candidates rfl rfl fun hcolumn => absurd hcolumn hkind

theorem fresh_of_recognize? (hl : InOrder l) {before after : List Token}
    (h : recognize? l threshold before t after = some e) : Fresh l threshold t e := by
  unfold recognize? at h
  split at h
  · obtain h | ⟨-, h⟩ := (Option.orElse_eq_some _ _ _).1 h
    · exact fresh_of_ofName? h
    · obtain h | ⟨-, h⟩ := (Option.orElse_eq_some _ _ _).1 h
      · exact fresh_of_ofLikeName? hl h
      · obtain h | ⟨-, h⟩ := (Option.orElse_eq_some _ _ _).1 h
        · exact fresh_of_ofNeighbours? h
        · exact fresh_of_ofTokenKind? h
  · exact fresh_of_ofTokenKind? h

theorem exists_of_mem_recognizeFrom {before tokens : List Token}
    (h : some e ∈ recognizeFrom l threshold before tokens) :
    ∃ t ∈ tokens, ∃ before after, recognize? l threshold before t after = some e := by
  induction tokens generalizing before with
  | nil => cases h
  | cons t after ih =>
      obtain h | h := List.mem_cons.1 h
      · exact ⟨t, List.mem_cons_self, before, after, h.symm⟩
      · obtain ⟨u, hu, hread⟩ := ih h
        exact ⟨u, List.mem_cons_of_mem t hu, hread⟩

/-- A token that is no name means what its kind says. -/
theorem mem_recognizeFrom {before tokens : List Token} {t : Token} (ht : t ∈ tokens)
    (hkind : t.kind.isNameLike = false) :
    ofTokenKind? t ∈ recognizeFrom l threshold before tokens := by
  induction tokens generalizing before with
  | nil => cases ht
  | cons u after ih =>
      obtain rfl | ht := List.mem_cons.1 ht
      · rw [recognizeFrom, recognize?, hkind]
        exact List.mem_cons_self
      · exact List.mem_cons_of_mem _ (ih ht)

/-- Words that stand in the lexicon are what their candidates say. -/
theorem recognizeFrom_of_lookup
    {read : List (Token × List Candidate)}
    (hname : ∀ p ∈ read, p.1.kind.isNameLike = true ∧ l.lookup p.1.normalized = some p.2)
    (before : List Token) : recognizeFrom l threshold before (read.map Prod.fst) =
      read.map fun p => some (ofCandidates p.1 p.2 1.0) := by
  induction read generalizing before with
  | nil => rfl
  | cons p after ih =>
      obtain ⟨⟨hkind, hfound⟩, hafter⟩ := List.forall_mem_cons.1 hname
      have hread : ofName? l p.1 = some (ofCandidates p.1 p.2 1.0) := by
        rw [ofName?, List.findSome?_cons, hfound]
        rfl
      rw [List.map_cons, recognizeFrom, ih hafter, recognize?, if_pos hkind, hread]
      rfl

end Entity

end AskSql
