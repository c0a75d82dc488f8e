import AskSql.Proofs.Decimal.Shares
import AskSql.Proofs.Question.Recognition
import AskSql.Proofs.Text.Folding
import AskSql.Proofs.Text.Pieces

/-!
# How sure entities are, and columns that are left open

Entities are dropped before it is looked at which tables they mention, and only then does a column
that is left open lose a share of its confidence.  So an entity is as sure as the settings ask for,
unless it is left open; and it is so in any case where the penalty leaves enough of what is least
sure (`recognize_sure`).  Settling mentions no further table (`Entity.mem_context_of_settled`), so
that none of the tables of such a column is mentioned by any entity, as far as their names come back
from the note in which they were joined by commas.
-/

namespace AskSql

namespace Entity

open Text Decimal

variable {cs : List Candidate} {t : Token} {scale threshold penalty : Float} {e : Entity}

/-! ### Tables that are mentioned -/

section Context

variable {es : List Entity} {mentioned : List String} {key : String}

theorem context_eq (es : List Entity) :
    context es = ((es.filterMap mentionedTable?).map lower).foldl (addDistinct (· == ·)) [] := by
  rw [context, List.foldl_map]
  congr 1
  funext names name
  dsimp only
  rw [addDistinct, List.contains_eq_any_beq]

theorem mem_context_iff :
    key ∈ context es ↔ ∃ e ∈ es, ∃ name, e.mentionedTable? = some name ∧ lower name = key := by
  have hnames : key ∈ context es ↔ key ∈ (es.filterMap mentionedTable?).map lower := by
    rw [context_eq]
    refine ⟨fun h => (sublist_foldl_addDistinct _ [] _).subset h, fun h => ?_⟩
    obtain ⟨other, hother, rfl | hsame⟩ := exists_mem_foldl_addDistinct (· == ·) [] h
    · exact hother
    · obtain rfl := beq_iff_eq.1 hsame
      exact hother
  rw [hnames]
  simp only [List.mem_map, List.mem_filterMap]
  constructor
  · rintro ⟨name, ⟨e, he, hname⟩, hkey⟩
    exact ⟨e, he, name, hname, hkey⟩
  · rintro ⟨e, he, name, hname, hkey⟩
    exact ⟨name, ⟨e, he, hname⟩, hkey⟩

/-- What becomes of an entity once the tables that are mentioned are known. -/
inductive Settled (mentioned : List String) (penalty : Float) (e : Entity) : Entity → Prop
  | same : Settled mentioned penalty e e
  | bound {table : String} (hkind : e.kind = .column) (htable : table ∈ e.candidates)
      (hmentioned : ∃ name ∈ mentioned, sameFold table name = true) :
      Settled mentioned penalty e
        ({ e with table := some table }.withNote "resolved_by" "context")
  | ambiguous (hkind : e.kind = .column) (hopen : e.table = none) (hseveral : e.candidates ≠ [])
      (hnone : ∀ name ∈ mentioned, ∀ table ∈ e.candidates, sameFold table name = false) :
      Settled mentioned penalty e
        ({ e with ambiguous := true, confidence := e.confidence * (1.0 - penalty) }.withNote
          "pre_ambiguity_confidence" (Decimal.fixed 4 e.confidence))

theorem settled_settle (mentioned : List String) (penalty : Float) (e : Entity) :
    Settled mentioned penalty e (settle mentioned penalty e) := by
  unfold settle
  dsimp only
  split
  · exact .same
  · next hopen =>
      simp only [Bool.or_eq_true, bne_iff_ne, ne_eq, not_or, not_not, Option.not_isSome_iff_eq_none,
        List.isEmpty_iff] at hopen
      obtain ⟨⟨hkind, htable⟩, hseveral⟩ := hopen
      split
      · next table hfound =>
          obtain ⟨name, hname, hfound⟩ := List.exists_of_findSome?_eq_some hfound
          have hsame := List.find?_some hfound
          exact .bound hkind (List.mem_of_find?_eq_some hfound) ⟨name, hname, hsame⟩
      · next hnone =>
          refine .ambiguous hkind htable hseveral fun name hname table hmem => ?_
          have hfree := List.findSome?_eq_none_iff.1 hnone name hname
          exact Bool.eq_false_iff.2 (List.find?_eq_none.1 hfree table hmem)

/-- Settling mentions no further table. -/
theorem mem_context_of_settled {e' : Entity} (h : Settled (context es) penalty e e') (he : e ∈ es)
    {name : String} (hname : e'.mentionedTable? = some name) : lower name ∈ context es := by
  cases h with
  | same => exact mem_context_iff.2 ⟨e, he, name, hname, rfl⟩
  | @bound table hkind _ hmentioned =>
      obtain ⟨key, hkey, hsame⟩ := hmentioned
      obtain rfl : table = name := by
        rw [mentionedTable?, withNote, hkind] at hname
        exact Option.some.inj hname
      obtain ⟨other, hother, third, hthird, rfl⟩ := mem_context_iff.1 hkey
      rw [sameFold_iff, lower_lower] at hsame
      rw [hsame]
      exact hkey
  | ambiguous hkind hopen =>
      rw [mentionedTable?, withNote, hkind, hopen] at hname
      cases hname

end Context

/-! ### Entities of a question -/

section Recognize

variable {s : Schema} {settings : RecognizerSettings} {synonyms : List (String × String)}
  {tokens : List Token} {word : String}

/-- Several tables, told apart by their names, have a column that a word stands for; these are all
that have one that declares it. -/
structure SharedBy (s : Schema) (synonyms : List (String × String)) (word : String)
    (names : List String) : Prop where
  several : 2 ≤ names.length
  apart : names.Pairwise fun a b => sameFold a b = false
  own : ∀ name ∈ names, ∃ t ∈ s.tables, t.name = name ∧
    ∃ column, Lexicon.MeansColumn synonyms word t column
  complete : ∀ t ∈ s.tables, ∀ column ∈ t.columns,
    Lexicon.Declares column.name column.synonyms word → ∃ name ∈ names, sameFold name t.name = true

theorem Shared.sharedBy (h : Shared cs scale e)
    (hfound : (Lexicon.ofSchema s synonyms).lookup word = some cs) :
    SharedBy s synonyms word (owners (ofKind .column cs)) := by
  have hcolumn : ∀ c ∈ ofKind .column cs, ∃ t ∈ s.tables, ∃ column,
      Lexicon.MeansColumn synonyms word t column ∧ c.name = column.name ∧
        c.table = some t.name := by
    intro c hc
    obtain ⟨hc, hkind⟩ := List.mem_filter.1 hc
    exact Lexicon.exists_of_column hfound hc (beq_iff_eq.1 hkind)
  refine ⟨?_, apart_owners _, fun name hname => ?_, fun t ht column hmem hdeclares => ?_⟩
  · obtain ⟨c, hc, -⟩ := h.best
    obtain ⟨t, -, -, -, -, htable⟩ := hcolumn c hc
    obtain ⟨owner, howner, -⟩ := exists_mem_owners hc htable
    have hpos := List.length_pos_of_mem howner
    have hseveral := h.several
    omega
  · obtain ⟨c, hc, hname⟩ := exists_of_mem_owners hname
    obtain ⟨t, ht, column, hmeans, -, htable⟩ := hcolumn c hc
    exact ⟨t, ht, Option.some.inj (htable.symm.trans hname), column, hmeans⟩
  · obtain ⟨c, hc, hkind, htable⟩ := Lexicon.exists_of_declares hfound ht hmem hdeclares
    exact exists_mem_owners (List.mem_filter.2 ⟨hc, beq_iff_eq.2 hkind⟩) htable

/-- No meaning is less sure than a synonym that is only just like enough. -/
theorem synonymConfidence_mul_le {sureness : Float} (hthreshold : IsShare threshold)
    (hscale : threshold ≤ scale) (hsure : Lexicon.synonymConfidence ≤ sureness) :
    Lexicon.synonymConfidence * threshold ≤ smaller (sureness * scale) 1.0 := by
  have hsynonym : IsShare Lexicon.synonymConfidence := ⟨by decide, by decide⟩
  have hpos : 0 < rank Lexicon.synonymConfidence := by decide
  refine le_smaller (fun hnumber => ?_) (hsynonym.mul hthreshold).2
  have hnonneg := (nonneg_iff scale).1 (le_trans hthreshold.1 hscale)
  have hproduct : (scale * Lexicon.synonymConfidence).isNaN = false := by
    have hbounds := number_of_isFinite hsynonym.isFinite
    cases productPlace hnonneg.1 hbounds.1 hnonneg.2 hpos.le with
    | undefined _ hends => omega
    | top hproduct => exact hproduct
    | finite hproduct => exact hproduct
  have hlike : threshold * Lexicon.synonymConfidence ≤ scale * Lexicon.synonymConfidence :=
    mul_le_mul_of_isFinite hthreshold.1 hscale hsynonym.1 hsynonym.isFinite hproduct
  have hmeaning : Lexicon.synonymConfidence * scale ≤ sureness * scale :=
    mul_le_mul_right hpos.le hsure hnonneg.2 (fun hzero => absurd hzero hpos.ne') hnumber
  rw [mul_comm threshold, mul_comm scale] at hlike
  exact le_trans hlike hmeaning

/-- The whole is as much as any threshold asks for. -/
theorem Reads.threshold_le (h : Reads threshold t word scale) (hthreshold : IsShare threshold) :
    threshold ≤ scale := by
  cases h with
  | exact => exact hthreshold.2
  | like hlike => exact hlike

/-- The penalty leaves of the confidence no less than it leaves of the least. -/
theorem Shared.penalized (h : Shared cs scale e)
    (hfound : (Lexicon.ofSchema s synonyms).lookup word = some cs) (hthreshold : IsShare threshold)
    (hscale : threshold ≤ scale) (hpenalty : IsShare penalty) :
    Lexicon.synonymConfidence * threshold * (1.0 - penalty) ≤ e.confidence * (1.0 - penalty) := by
  obtain ⟨c, hc, -, hconfidence⟩ := h.best
  have hsure := Lexicon.synonymConfidence_le hfound (List.mem_filter.1 hc).1
  have hleast : Lexicon.synonymConfidence * threshold ≤ e.confidence := by
    rw [hconfidence]
    exact synonymConfidence_mul_le hthreshold hscale hsure
  have hmost : e.confidence ≤ 1.0 := by
    rw [hconfidence]
    exact smaller_le_right (by decide)
  have hsynonym : IsShare Lexicon.synonymConfidence := ⟨by decide, by decide⟩
  have hnonneg := (hsynonym.mul hthreshold).1
  have hshare : IsShare e.confidence := ⟨le_trans hnonneg hleast, hmost⟩
  have hproduct := number_of_isFinite (hshare.mul hpenalty.rest).isFinite
  exact mul_le_mul_of_isFinite hnonneg hleast hpenalty.rest.1 hpenalty.rest.isFinite hproduct.1

theorem Shared.exists_resolved (h : Shared cs scale e)
    (hfound : (Lexicon.ofSchema s synonyms).lookup word = some cs) : ∃ t ∈ s.tables, ∃ column,
      Lexicon.MeansColumn synonyms word t column ∧ e.resolved = some column.name := by
  obtain ⟨c, hc, hresolved, -⟩ := h.best
  obtain ⟨hc, hkind⟩ := List.mem_filter.1 hc
  obtain ⟨t, ht, column, hmeans, hname, -⟩ :=
    Lexicon.exists_of_column hfound hc (beq_iff_eq.1 hkind)
  exact ⟨t, ht, column, hmeans, hname ▸ hresolved⟩

/-- The entities of some tokens that are sure enough, before the tables that they mention are looked
at. -/
def sure (s : Schema) (settings : RecognizerSettings) (tokens : List Token) : List Entity :=
  ((recognizeFrom (Lexicon.ofSchema s settings.synonyms) settings.fuzzyThreshold []
    tokens).filterMap id).filter fun e => decide (settings.minConfidence < e.confidence)

theorem recognize_eq (s : Schema) (settings : RecognizerSettings) (tokens : List Token) :
    recognize s settings tokens = (sure s settings tokens).map
      (settle (context (sure s settings tokens)) settings.ambiguityPenalty) := rfl

theorem fresh_of_mem_sure (h : e ∈ sure s settings tokens) :
    settings.minConfidence < e.confidence ∧ ∃ t ∈ tokens,
      Fresh (Lexicon.ofSchema s settings.synonyms) settings.fuzzyThreshold t e := by
  obtain ⟨hfound, hsure⟩ := List.mem_filter.1 h
  obtain ⟨read, hread, heq⟩ := List.mem_filterMap.1 hfound
  obtain rfl : read = some e := heq
  obtain ⟨t, ht, before, after, hmeaning⟩ := exists_of_mem_recognizeFrom hread
  have horder := Lexicon.inOrder_ofSchema s settings.synonyms
  exact ⟨of_decide_eq_true hsure, t, ht, fresh_of_recognize? horder hmeaning⟩

theorem exists_settled (h : e ∈ recognize s settings tokens) : ∃ e₀ ∈ sure s settings tokens,
    Settled (context (sure s settings tokens)) settings.ambiguityPenalty e₀ e := by
  rw [recognize_eq] at h
  obtain ⟨e₀, he₀, rfl⟩ := List.mem_map.1 h
  exact ⟨e₀, he₀, settled_settle _ _ e₀⟩

theorem lower_mem_context_sure (h : e ∈ recognize s settings tokens) {table : String}
    (htable : e.mentionedTable? = some table) : lower table ∈ context (sure s settings tokens) := by
  obtain ⟨e₀, he₀, hsettled⟩ := exists_settled h
  exact mem_context_of_settled hsettled he₀ htable

theorem sure_of_lookup (read : List (Token × List Candidate))
    (hname : ∀ p ∈ read, p.1.kind.isNameLike = true ∧
      (Lexicon.ofSchema s settings.synonyms).lookup p.1.normalized = some p.2)
    (hsure : ∀ p ∈ read, settings.minConfidence < (ofCandidates p.1 p.2 1.0).confidence) :
    sure s settings (read.map Prod.fst) = read.map fun p => ofCandidates p.1 p.2 1.0 := by
  have hsome : (fun p : Token × List Candidate => some (ofCandidates p.1 p.2 1.0)) =
      some ∘ fun p => ofCandidates p.1 p.2 1.0 := rfl
  rw [sure, recognizeFrom_of_lookup hname, hsome, ← List.map_map, List.filterMap_map,
    Function.id_comp, List.filterMap_some]
  refine List.filter_eq_self.2 fun e he => ?_
  obtain ⟨p, hp, rfl⟩ := List.mem_map.1 he
  exact decide_eq_true (hsure p hp)

/-- A table that is none of the candidates that were looked for is not mentioned, unless its name
was taken apart at a comma. -/
theorem Shared.not_mentioned (h : Shared cs scale e)
    (hnone : ∀ key ∈ context (sure s settings tokens), ∀ table ∈ e.candidates,
      sameFold table key = false)
    {name : String} (hname : name ∈ owners (ofKind .column cs)) (hcomma : ',' ∉ name.toList)
    {other : Entity} (hother : other ∈ recognize s settings tokens) {table : String}
    (htable : other.mentionedTable? = some table) : sameFold name table = false := by
  have hcandidate : name ∈ e.candidates := by
    rw [h.candidates]
    have hcomma' : ",".toList = [','] := rfl
    refine mem_split_intercalate hcomma' (beq_self_eq_true ',') hname fun d hd => ?_
    exact beq_eq_false_iff_ne.2 fun heq => hcomma (heq ▸ hd)
  have hfree := hnone _ (lower_mem_context_sure hother htable) name hcandidate
  rw [Bool.eq_false_iff, ne_eq, sameFold_iff] at hfree ⊢
  rwa [lower_lower] at hfree

/-- What is known of a column that a question leaves open: the confidence that it had before, and a
word of the question that stands for it and for columns of other tables, none of which is mentioned
unless there is a comma in its name. -/
structure LeftOpen (s : Schema) (settings : RecognizerSettings) (tokens : List Token) (e : Entity) :
    Prop where
  column : e.kind = .column
  unbound : e.table = none
  lowered : ∃ before, settings.minConfidence < before ∧
    e.confidence = before * (1.0 - settings.ambiguityPenalty)
  shared : ∃ word names, SharedBy s settings.synonyms word names ∧
    (∃ t ∈ tokens, e.text = t.text ∧ ∃ scale, Reads settings.fuzzyThreshold t word scale) ∧
    (∃ t ∈ s.tables, ∃ column, Lexicon.MeansColumn settings.synonyms word t column ∧
      e.resolved = some column.name) ∧
    ∀ name ∈ names, ',' ∉ name.toList → ∀ other ∈ recognize s settings tokens,
      ∀ table, other.mentionedTable? = some table → sameFold name table = false

end Recognize

end Entity

section Recognize

open Entity Decimal Text

variable {s : Schema} {settings : RecognizerSettings} {tokens : List Token} {e : Entity}

/-- An entity is as sure as the settings ask for, or a column that is left open, whose confidence
was so before the penalty.  All are where the penalty leaves enough of what is least sure: a synonym
that is only just like enough. -/
theorem recognize_sure (h : e ∈ recognize s settings tokens) :
    (e.ambiguous = false → settings.minConfidence < e.confidence) ∧
      (e.ambiguous = true → LeftOpen s settings tokens e) ∧
      (IsShare settings.fuzzyThreshold → IsShare settings.ambiguityPenalty →
        settings.minConfidence < Lexicon.synonymConfidence * settings.fuzzyThreshold *
          (1.0 - settings.ambiguityPenalty) →
        settings.minConfidence < e.confidence) := by
  obtain ⟨e₀, he₀, hsettled⟩ := exists_settled h
  obtain ⟨hsure, t, ht, hfresh⟩ := fresh_of_mem_sure he₀
  cases hsettled with
  | same =>
      refine ⟨fun _ => hsure, fun hambiguous => ?_, fun _ _ _ => hsure⟩
      rw [hfresh.unmarked] at hambiguous
      cases hambiguous
  | bound =>
      refine ⟨fun _ => hsure, fun hambiguous => ?_, fun _ _ _ => hsure⟩
      cases hfresh.unmarked.symm.trans hambiguous
  | ambiguous hkind hopen hseveral hnone =>
      obtain ⟨word, cs, scale, hreads, hfound, hshared⟩ := hfresh.shared hkind hopen hseveral
      refine ⟨fun hunmarked => Bool.noConfusion hunmarked, fun _ => ?_,
        fun hthreshold hpenalty hleft => ?_⟩
      · exact {
          column := hkind
          unbound := hopen
          lowered := ⟨e₀.confidence, hsure, rfl⟩
          shared := ⟨word, owners (ofKind .column cs), hshared.sharedBy hfound,
            ⟨t, ht, hfresh.text, scale, hreads⟩, hshared.exists_resolved hfound,
            fun name hname hcomma other hother table htable =>
              hshared.not_mentioned hnone hname hcomma hother htable⟩ }
      · have hscale := hreads.threshold_le hthreshold
        exact lt_of_lt_of_le hleft (hshared.penalized hfound hthreshold hscale hpenalty)

/-- Two tables that each have a column of one name. -/
def namesakes (left right : String) : Schema where
  tables := [left, right].map fun table =>
    { name := table, columns := [{ name := "name", type := .text }] }

/-- A word of a question. -/
def wordToken (word : String) : Token where
  text := word
  kind := .noun
  position := 0
  length := word.utf8ByteSize
  normalized := word
  confidence := 0.5

/-- What the name of the columns may mean. -/
def nameCandidates (left right : String) : List Candidate :=
  [left, right].map fun table => ⟨.column, "name", some table, Lexicon.exactConfidence, "exact"⟩

/-- The name alone is left open between the two tables. -/
theorem recognize_name (settings : RecognizerSettings) (hsure : settings.minConfidence < 1.0) :
    ∃ e, recognize (namesakes "customers" "suppliers") settings [wordToken "name"] = [e] ∧
      e.ambiguous = true ∧ e.confidence = 1.0 * (1.0 - settings.ambiguityPenalty) := by
  have hname : Lexicon.declaredMeaning? (namesakes "customers" "suppliers") "name" =
      some (nameCandidates "customers" "suppliers") := by decide +kernel
  have hall : sure (namesakes "customers" "suppliers") settings [wordToken "name"] =
      [ofCandidates (wordToken "name") (nameCandidates "customers" "suppliers") 1.0] :=
    sure_of_lookup [(wordToken "name", nameCandidates "customers" "suppliers")]
      (List.forall_mem_singleton.2 ⟨rfl, Lexicon.lookup_of_declared hname _⟩)
      (List.forall_mem_singleton.2 hsure)
  rw [recognize_eq, hall]
  exact ⟨_, rfl, rfl, rfl⟩

/-- The table that is mentioned is not seen to be the one of the column where its name has a
comma. -/
theorem recognize_name_comma :
    ∃ other e, recognize (namesakes "north,south" "west") {}
        [wordToken "north,south", wordToken "name"] = [other, e] ∧
      other.mentionedTable? = some "north,south" ∧ e.ambiguous = true ∧
      e.resolved = some "name" := by
  have htable : Lexicon.declaredMeaning? (namesakes "north,south" "west") "north,south" =
      some [⟨.table, "north,south", none, Lexicon.exactConfidence, "exact"⟩] := by decide +kernel
  have hname : Lexicon.declaredMeaning? (namesakes "north,south" "west") "name" =
      some (nameCandidates "north,south" "west") := by decide +kernel
  have hall : sure (namesakes "north,south" "west") {} [wordToken "north,south", wordToken "name"] =
      [ofCandidates (wordToken "north,south")
          [⟨.table, "north,south", none, Lexicon.exactConfidence, "exact"⟩] 1.0,
        ofCandidates (wordToken "name") (nameCandidates "north,south" "west") 1.0] :=
    sure_of_lookup [(wordToken "north,south",
        [⟨.table, "north,south", none, Lexicon.exactConfidence, "exact"⟩]),
      (wordToken "name", nameCandidates "north,south" "west")]
      (List.forall_mem_cons.2 ⟨⟨rfl, Lexicon.lookup_of_declared htable _⟩,
        List.forall_mem_singleton.2 ⟨rfl, Lexicon.lookup_of_declared hname _⟩⟩)
      (List.forall_mem_cons.2 ⟨by decide, List.forall_mem_singleton.2 (by decide)⟩)
  rw [recognize_eq, hall]
  exact ⟨_, _, rfl, by decide +kernel, by decide +kernel, by decide +kernel⟩

/-- The settings are the usual ones. -/
theorem recognize_sure_name :
    ∃ e ∈ recognize (namesakes "customers" "suppliers") {} [wordToken "name"],
      LeftOpen (namesakes "customers" "suppliers") {} [wordToken "name"] e ∧
        ({} : RecognizerSettings).minConfidence < e.confidence := by
  obtain ⟨e, hrecognize, hambiguous, -⟩ := recognize_name {} (by decide)
  have he : e ∈ recognize (namesakes "customers" "suppliers") {} [wordToken "name"] := by
    rw [hrecognize]
    exact List.mem_singleton_self e
  obtain ⟨-, hopen, hsure⟩ := recognize_sure he
  exact ⟨e, he, hopen hambiguous,
    hsure ⟨by decide, by decide⟩ ⟨by decide, by decide⟩ (by decide)⟩

/-- A penalty may leave nothing of the confidence, and a comma in the name of a table keeps it from
being seen among those that are mentioned. -/
theorem recognize_name_unsure :
    (IsShare 0.7 ∧ IsShare 0.3 ∧ IsShare 1.0) ∧
      (∃ e ∈ recognize (namesakes "customers" "suppliers")
          { fuzzyThreshold := 0.7, minConfidence := 0.3, ambiguityPenalty := 1.0 }
          [wordToken "name"], ¬0.3 < e.confidence) ∧
      ∃ other e, recognize (namesakes "north,south" "west") {}
          [wordToken "north,south", wordToken "name"] = [other, e] ∧
        other.mentionedTable? = some "north,south" ∧ e.ambiguous = true ∧
        e.resolved = some "name" ∧
        ((namesakes "north,south" "west").tablesWithColumn "name").map Table.name =
          ["north,south", "west"] := by
  refine ⟨⟨⟨by decide, by decide⟩, ⟨by decide, by decide⟩, by decide, by decide⟩, ?_, ?_⟩
  · obtain ⟨e, hrecognize, -, hconfidence⟩ := recognize_name
      { fuzzyThreshold := 0.7, minConfidence := 0.3, ambiguityPenalty := 1.0 }
      (by decide)
    refine ⟨e, ?_, ?_⟩
    · rw [hrecognize]
      exact List.mem_singleton_self e
    · rw [hconfidence]
      decide
  · obtain ⟨other, e, hrecognize, hmentioned, hambiguous, hresolved⟩ := recognize_name_comma
    exact ⟨other, e, hrecognize, hmentioned, hambiguous, hresolved, by decide +kernel⟩

end Recognize

end AskSql
