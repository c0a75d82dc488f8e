import AskSql.Proofs.Compose.Heuristic
import AskSql.Proofs.Question.SpanDays

/-!
# How far a question looks back

Two readers look for the same words, each on its own.  One makes a token of them and notes its
days, the other searches the question in small letters for the pattern of counted spans and makes a
condition of the first one that it finds.  Both take a number of 32 bits and cut the days off at
what 32 bits hold, so they agree on every number that fits (`PastSpan.looksBack`), and both pass
over one that does not.
-/

namespace AskSql

open Text Text.Pattern

namespace Phrasing

variable {span : PastSpan} {front back : List Char}

/-- The words in front of the number of a counted span. -/
def spanWords : List String :=
  ["last", "past", "previous", "trailing"]

/-- No counted span begins with a word for one, unless it is there. -/
theorem matchAt?_countedSpan_eq_none {last : Option Char} {cs : List Char}
    (h : ∀ w ∈ spanWords, ¬w.toList <+: cs) : countedSpan.matchAt? last cs = none := by
  rw [matchAt?, List.head?_eq_none_iff, countedSpan, List.eq_nil_iff_forall_not_mem]
  intro d hd
  rw [ends_ofSeq_cons, List.mem_flatMap] at hd
  obtain ⟨e, he, hd⟩ := hd
  rw [ends_ofSeq_cons, List.mem_flatMap] at hd
  obtain ⟨f, hf, -⟩ := hd
  obtain rfl := eq_of_mem_ends_edge he
  obtain ⟨w, hw, hprefix⟩ := exists_prefix_of_mem_ends_exacts (by decide) hf
  exact h w hw hprefix

theorem ends_exactUnit (unit : TimeUnit) (last : Option Char) (rest : List Char)
    (captured : List (Nat × String)) :
    (exacts ["day", "week", "month", "year"]).ends ⟨last, unit.name.toList ++ rest, captured⟩ =
      [⟨unit.name.toList.getLast?, rest, captured⟩] := by
  cases unit <;> rfl

/-- The pattern of counted spans takes the words for a span where they stand. -/
theorem matchAt?_countedSpan (span : PastSpan) {last : Option Char}
    (hlast : last.any isWordChar = false) (hback : ∀ c ∈ back.head?, isWordChar c = false) :
    ∃ d, countedSpan.matchAt? last (span.chars ++ back) = some d ∧
      d.captured = [(2, span.unit.name), (1, String.ofList span.digits)] := by
  -- part by part of the pattern: edge, keyword, count, unit, plural
  have hedge : edge.ends ⟨last, span.chars ++ back, []⟩ = [⟨last, span.chars ++ back, []⟩] := by
    rw [span.chars_append]
    exact ends_edge_before hlast rfl
  have hkeyword : (exacts ["last", "past", "previous", "trailing"]).ends
      ⟨last, span.chars ++ back, []⟩ =
        [⟨some 't', ' ' :: (span.digits ++ ' ' :: (span.unitChars ++ back)), []⟩] := by
    rw [span.chars_append]
    rfl
  have hunit := ends_capture_of_ends (ends_exactUnit span.unit (some ' ')
    ((if span.plural then ['s'] else []) ++ back) [(1, String.ofList span.digits)]) 2
  have hletter : (span.unit.name.toList.getLast?).any isWordChar = true := by
    cases span.unit <;> rfl
  -- an s behind the unit is its plural, as no letter may follow
  have hplain : ∀ c ∈ back.head?, (c == 's') = false := by
    intro c hc
    refine beq_false_of_ne ?_
    rintro rfl
    exact absurd (hback _ hc) (by decide)
  obtain ⟨last', hplural⟩ := TokenRule.ends_plural (· == 's') rfl hback hplain hletter span.plural
    [(2, String.ofList span.unit.name.toList), (1, String.ofList span.digits)]
  rw [String.ofList_toList] at hunit hplural
  refine ⟨⟨last', back, _⟩, ?_, rfl⟩
  rw [matchAt?]
  show ((seq edge (seq (exacts ["last", "past", "previous", "trailing"]) (seq blanks
    (seq (capture 1 Pattern.digits) (seq blanks
      (seq (capture 2 (exacts ["day", "week", "month", "year"]))
        (seq (Pattern.optional (one (· == 's'))) edge))))))).ends _).head? = _
  rw [ends_seq_of_ends hedge, ends_seq_of_ends hkeyword,
    span.ends_count_captured _ _ _ (span.isBlank_head_unitChars back), PastSpan.unitChars,
    List.append_assoc, ends_seq_of_ends hunit, hplural]

/-- Text behind which a span may begin, and in which no word for one stands. -/
structure LeadsTo (front : List Char) : Prop where
  apart : ∀ c ∈ front.getLast?, isWordChar c = false
  first : ∀ w ∈ spanWords, ¬w.toList <:+: front

theorem LeadsTo.find?_countedSpan (hfront : LeadsTo front) (span : PastSpan)
    (hback : ∀ c ∈ back.head?, isWordChar c = false) :
    ∃ found, countedSpan.find? (String.ofList (front ++ (span.chars ++ back))) = some found ∧
      found.captured = [(2, span.unit.name), (1, String.ofList span.digits)] := by
  have hletters : ∀ w ∈ spanWords, w.toList.all isWordChar = true := by decide
  have hpassed : ∀ more ≠ [], more <:+ front → ∀ last,
      countedSpan.matchAt? last (more ++ (span.chars ++ back)) = none := by
    intro more hne hmore last
    refine matchAt?_countedSpan_eq_none fun w hw hprefix => ?_
    obtain hshort | hlong := List.prefix_or_prefix_of_prefix hprefix (List.prefix_append more _)
    · exact hfront.first w hw (hshort.isInfix.trans hmore.isInfix)
    · -- the word would go over the edge in front of the span
      obtain ⟨before, hbefore⟩ := hmore
      have hend : more.getLast hne ∈ front.getLast? := by
        rw [← hbefore, List.getLast?_append_of_ne_nil before hne, List.getLast?_eq_some_getLast hne]
        rfl
      have hword := List.all_eq_true.1 (hletters w hw) _ (hlong.subset (List.getLast_mem hne))
      rw [hfront.apart _ hend] at hword
      cases hword
  have hlast : (front.getLast?.or none).any isWordChar = false := by
    rw [Option.or_none]
    exact (Option.any_eq_false _ _).2 hfront.apart
  obtain ⟨d, hmatch, hcaptured⟩ := matchAt?_countedSpan span hlast hback
  rw [find?, String.toList_ofList, findFrom?_append hpassed]
  rw [span.chars_append] at hmatch ⊢
  rw [findFrom?, hmatch]
  exact ⟨_, rfl, hcaptured⟩

/-- The first counted span of a question, if its number fits in 32 bits. -/
theorem LeadsTo.countedDays?_eq (hfront : LeadsTo front) {p : Phrasing}
    (hstands : span.StandsBehind front p.text) :
    p.countedDays? = if span.value < 2 ^ 32 then some span.daysBack else none := by
  obtain ⟨back, htext, hback⟩ := hstands
  obtain ⟨found, hfound, hcaptured⟩ := hfront.find?_countedSpan span hback
  have hcount : found.get? 1 = some (String.ofList span.digits) := by
    rw [Found.get?, hcaptured]
    rfl
  have hunit : found.get? 2 = some span.unit.name := by
    rw [Found.get?, hcaptured]
    rfl
  have hsame : p.text = String.ofList (front ++ (span.chars ++ back)) := by
    rw [← htext, String.ofList_toList]
  have hcounted : p.countedDays? = (natural? 32 (String.ofList span.digits)).bind fun count =>
      some (Wording.daysOf count span.unit.name) := by
    simp only [countedDays?, hsame, hfound, hcount, hunit, bind, Option.bind_some, pure]
  rw [hcounted, span.natural?_digits]
  split
  · rw [Option.bind_some, span.daysOf_unit]
  · rfl

end Phrasing

namespace Condition

/-- The condition compares with a day that lies some days back. -/
def isInterval (c : Condition) : Bool :=
  match c.rhs with
  | .daysAgo _ => true
  | _ => false

/-- The date lies at most so many days back. -/
def within (date : Reference) (days : Nat) : Condition :=
  ⟨.column date, .gtEq, .daysAgo days⟩

end Condition

namespace Heuristic

variable {s : Schema} {base : String} {p : Phrasing}

/-- Growing the tree leaves the base table first, so its date is the first of all. -/
theorem dateColumn?_treeOf {table : Table} (htable : s.table? base = some table) {c : Column}
    (hdate : table.dateColumn? = some c) :
    (treeOf s p base).dateColumn? s = some ⟨table.name, c.name, none⟩ := by
  obtain ⟨hgrown, -⟩ := composed_draft s p base []
  rw [JoinTree.dateColumn?, JoinTree.findInTables?, JoinTree.tables, List.findSome?_cons,
    hgrown.base_eq, htable, Option.bind_some, hdate, Option.map_some]

theorem filters_takePortion (q : Query) (portion : Phrasing.Portion) :
    (takePortion s base q portion).filters = q.filters := by
  cases portion <;> rfl

theorem filters_draft (s : Schema) (p : Phrasing) (base : String) (joins : List Join) :
    (draft s p base joins).filters = filters s p (treeOf s p base) :=
  filters_takePortion _ _

/-- Over a schema of plain names a question that is about a plain name has a query. -/
theorem exists_query (hplain : s.HasPlainNames) {default : Option String} {text : String}
    (hbase : baseTable s default (Phrasing.ofText text).words = .ok base)
    (hplainBase : Name.IsPlain base) : ∃ q, query s default text = .ok q := by
  obtain ⟨hgrown, -⟩ := composed_draft s (Phrasing.ofText text) base []
  obtain ⟨joins, hjoins, -⟩ := hgrown.joinsFrom hplain hplainBase
  obtain ⟨-, hcomposed⟩ := composed_draft s (Phrasing.ofText text) base joins
  have hvalid : (draft s (Phrasing.ofText text) base joins).validate = .ok () :=
    hcomposed.validate hgrown hplain hplainBase (by rwa [joins_draft])
  refine ⟨draft s (Phrasing.ofText text) base joins, ?_⟩
  rw [query_eq]
  simp only [hbase, hjoins, hvalid, bind, Except.bind, pure, Except.pure]

/-- The conditions of a query are those over the tree that grows from its base table. -/
theorem filters_of_query {default : Option String} {text : String} {q : Query}
    (hbase : baseTable s default (Phrasing.ofText text).words = .ok base)
    (h : query s default text = .ok q) :
    q.filters = filters s (Phrasing.ofText text) (treeOf s (Phrasing.ofText text) base) := by
  obtain ⟨base', hbase', -, hq⟩ := query_eq_ok h
  obtain rfl := Except.ok.inj (hbase.symm.trans hbase')
  rw [hq, filters_draft]

/-- What a query over a table with a date is to look back, it looks back by that date, and it has no
other condition of this kind. -/
theorem intervals_filters {date : Reference} {t : JoinTree} (hdate : t.dateColumn? s = some date) :
    (filters s p t).filter Condition.isInterval =
      (p.daysBack?.map (Condition.within date)).toList := by
  have hrecent : (recent? (some date) p.daysBack?).toList.filter Condition.isInterval =
      (p.daysBack?.map (Condition.within date)).toList := by
    cases p.daysBack? <;> rfl
  have hmonth : (inMonth? (some date) p.month?).toList.filter Condition.isInterval = [] := by
    cases p.month? <;> rfl
  have hstatus : (hasStatus? s p t).toList.filter Condition.isInterval = [] := by
    rw [List.filter_eq_nil_iff]
    intro c hc
    obtain ⟨status, -, hc⟩ := Option.bind_eq_some_iff.1 (Option.mem_toList.1 hc)
    obtain ⟨column, -, hc⟩ := Option.bind_eq_some_iff.1 hc
    obtain rfl := Option.some.inj hc
    exact Bool.false_ne_true
  simp only [filters, hdate, List.filter_append, hrecent, hmonth, hstatus, List.append_nil]

/-- The base table that is found in the schema has a plain name. -/
theorem isPlain_of_baseTable (hplain : s.HasPlainNames) {default : Option String}
    {words : List String} (hbase : baseTable s default words = .ok base) {table : Table}
    (htable : s.table? base = some table) : Name.IsPlain base := by
  obtain ⟨named, hmem, hnamed⟩ | ⟨name, -, hnamed⟩ | ⟨-, -, hnone⟩ :=
    baseTable_cases s default words
  · obtain rfl := Except.ok.inj (hnamed.symm.trans hbase)
    exact hplain _ (Schema.writes_table hmem)
  · obtain rfl := Except.ok.inj (hnamed.symm.trans hbase)
    rw [Schema.tableName] at htable ⊢
    cases hfound : s.table? name with
    | none =>
        rw [hfound, Option.map_none, Option.getD_none, hfound] at htable
        cases htable
    | some found => exact hplain _ (Schema.writes_table (Schema.mem_of_table? hfound))
  · rw [hnone] at hbase
    cases hbase

end Heuristic

namespace PastSpan

/-- A question with a span of time in it looks back by the days of the span, at most as many as 32
bits hold, where the number of the span fits in 32 bits: this is what is noted for the span, and so
it is the window of the question if nothing else is in it, or no other span and nothing compared;
and it is the one interval of a query over a table with a date.  A larger number is no number: the
span is then noted as one unit, or in the plural without days, and the query looks back only as far
as another span of the question says. -/
theorem looksBack (span : PastSpan) :
    (∀ (words : Dictionary) (question : String) (front : List Char),
      span.StandsBehind front question →
      front = [] ∨ (∃ t ∈ tokenize words question, t.position = Token.bytes front) →
      ∀ (s : Schema) (settings : RecognizerSettings), settings.minConfidence < 0.95 →
        ∃ e ∈ recognize s settings (tokenize words question),
          span.IsMeant (Token.bytes front) e ∧
          ((question = span.wording ∨ ∀ f ∈ recognize s settings (tokenize words question),
              f.isComparison = false ∧ (f.kind = .timeRange → f = e)) →
            (Components.ofQuestion (tokenize words question)
              (recognize s settings (tokenize words question))).windowDays = span.notedDays?)) ∧
    ∀ (s : Schema) (default : Option String) (question : String) (front : List Char),
      span.StandsBehind front (lowercase question) → Phrasing.LeadsTo front →
      ∀ (base : String) (table : Table) (c : Column),
        Heuristic.baseTable s default (Phrasing.ofText question).words = .ok base →
        s.table? base = some table → table.dateColumn? = some c →
        (s.HasPlainNames → ∃ q, Heuristic.query s default question = .ok q) ∧
        ∀ q, Heuristic.query s default question = .ok q →
          q.filters.filter Condition.isInterval =
            ((if span.value < 2 ^ 32 then some span.daysBack
              else (Phrasing.ofText question).namedDays?).map
                (Condition.within ⟨table.name, c.name, none⟩)).toList := by
  constructor
  -- the reader of tokens
  · intro words question front hstands hstart s settings hsure
    have hmem := entity_mem_recognize (token_mem_tokenize hstands hstart) s hsure
    have hmeant := span.isMeant_entity (Token.bytes front)
    refine ⟨_, hmem, hmeant, fun halone => ?_⟩
    have honly : ∀ f ∈ recognize s settings (tokenize words question),
        f.isComparison = false ∧ (f.kind = .timeRange → f = span.entity (Token.bytes front)) := by
      obtain rfl | honly := halone
      · rw [recognize_wording span words s hsure, List.mem_singleton] at hmem
        rw [recognize_wording span words s hsure, List.forall_mem_singleton]
        exact ⟨span.isComparison_entity 0, fun _ => hmem.symm⟩
      · exact honly
    rw [Components.windowDays_eq hmem hmeant.kind (fun f hf => (honly f hf).2)
      (fun f hf => (honly f hf).1), noted?_entity]
  -- the reader that searches for the pattern
  · intro s default question front hstands hfront base table c hbase htable hdate
    refine ⟨fun hplain => Heuristic.exists_query hplain hbase
      (Heuristic.isPlain_of_baseTable hplain hbase htable), fun q hquery => ?_⟩
    have hback : (Phrasing.ofText question).daysBack? =
        if span.value < 2 ^ 32 then some span.daysBack
        else (Phrasing.ofText question).namedDays? := by
      have hcounted : (Phrasing.ofText question).countedDays? =
          if span.value < 2 ^ 32 then some span.daysBack else none := hfront.countedDays?_eq hstands
      rw [Phrasing.daysBack?, hcounted]
      split
      · exact Option.orElse_some
      · exact Option.orElse_none
    rw [Heuristic.filters_of_query hbase hquery,
      Heuristic.intervals_filters (Heuristic.dateColumn?_treeOf htable hdate), hback]

/-- Orders with their dates. -/
def datedOrders : Schema where
  tables := [
    { name := "orders",
      columns := [{ name := "id", type := .integer }, { name := "order_date", type := .date }] }]

/-- The last thirty days. -/
def thirtyDays : PastSpan where
  digits := ['3', '0']
  unit := .day
  plural := true
  digits_ne_nil := by decide
  digits_ascii := List.all_eq_true.1 rfl

theorem hasPlainNames_datedOrders : datedOrders.HasPlainNames := by
  rintro name (⟨t, ht, rfl⟩ | ⟨r, hr, -⟩)
  · obtain rfl := List.mem_singleton.1 ht
    exact ⟨by decide, by decide⟩
  · cases hr

/-- A word stands in front of the span, which is the window of the question and the one interval of
the query. -/
theorem looksBack_thirtyDays :
    (∃ e ∈ recognize datedOrders {} (tokenize [("orders", "orders")] "the last 30 days"),
      e.kind = .timeRange ∧ e.note? "days" = some "30") ∧
    (Components.ofQuestion (tokenize [("orders", "orders")] "the last 30 days")
      (recognize datedOrders {}
        (tokenize [("orders", "orders")] "the last 30 days"))).windowDays = some 30 ∧
    ∃ q, Heuristic.query datedOrders none "the last 30 days" = .ok q ∧
      q.filters.filter Condition.isInterval =
        [.within ⟨"orders", "order_date", none⟩ 30] := by
  have hstands : thirtyDays.StandsBehind "the ".toList "the last 30 days" :=
    ⟨[], by decide, nofun⟩
  have hsmall : lowercase "the last 30 days" = "the last 30 days" := by decide
  have hstart : ∃ t ∈ tokenize [("orders", "orders")] "the last 30 days",
      t.position = Token.bytes "the ".toList := by decide +kernel
  have hfront : Phrasing.LeadsTo "the ".toList :=
    ⟨(Option.any_eq_false _ _).1 rfl, by decide⟩
  obtain ⟨hread, hsought⟩ := looksBack thirtyDays
  obtain ⟨e, he, hmeant, hwindow⟩ := hread [("orders", "orders")] "the last 30 days"
    "the ".toList hstands (.inr hstart) datedOrders {} (by decide)
  have honly : ∀ f ∈ recognize datedOrders {} (tokenize [("orders", "orders")] "the last 30 days"),
      f.isComparison = false ∧ (f.kind = .timeRange → f = e) := by
    have hplain : (recognize datedOrders {}
        (tokenize [("orders", "orders")] "the last 30 days")).map Entity.isComparison = [false] := by
      decide +kernel
    obtain ⟨f, hes, hf⟩ := List.map_eq_singleton_iff.1 hplain
    rw [hes, List.mem_singleton] at he
    rw [hes, List.forall_mem_singleton]
    exact ⟨hf, fun _ => he.symm⟩
  refine ⟨⟨e, he, hmeant.kind, hmeant.days⟩, hwindow (.inr honly), ?_⟩
  have hbase : Heuristic.baseTable datedOrders none
      (Phrasing.ofText "the last 30 days").words = .ok "orders" := by decide +kernel
  obtain ⟨hexists, hintervals⟩ := hsought datedOrders none "the last 30 days" "the ".toList
    (by rwa [hsmall]) hfront "orders" _ _ hbase rfl rfl
  obtain ⟨q, hquery⟩ := hexists hasPlainNames_datedOrders
  exact ⟨q, hquery, hintervals q hquery⟩

/-- One more day than 32 bits hold. -/
def manyDays (plural : Bool) : PastSpan where
  digits := ['4', '2', '9', '4', '9', '6', '7', '2', '9', '6']
  unit := .day
  plural
  digits_ne_nil := by decide
  digits_ascii := List.all_eq_true.1 rfl

/-- No days are noted for a number that does not fit, one day in the singular, and no condition
comes of it. -/
theorem looksBack_manyDays : (manyDays true).daysBack = 4294967295 ∧
    (∃ e ∈ recognize datedOrders {} (tokenize [("orders", "orders")] "last 4294967296 days"),
      e.kind = .timeRange ∧ e.note? "days" = none) ∧
    (∃ e ∈ recognize datedOrders {} (tokenize [("orders", "orders")] "last 4294967296 day"),
      e.kind = .timeRange ∧ e.note? "days" = some "1") ∧
    (Heuristic.query datedOrders none "last 4294967296 days").map (fun q => q.filters.isEmpty) =
      .ok true := by
  have hread (plural : Bool) {question : String}
      (hstands : (manyDays plural).StandsBehind [] question) :
      ∃ e ∈ recognize datedOrders {} (tokenize [("orders", "orders")] question),
        e.kind = .timeRange ∧ e.note? "days" = (manyDays plural).notedDays?.map toString :=
    have hmeant := (manyDays plural).isMeant_entity (Token.bytes [])
    ⟨_, entity_mem_recognize (token_mem_tokenize hstands (.inl rfl)) datedOrders (by decide),
      hmeant.kind, hmeant.days⟩
  refine ⟨by decide, ?_, ?_, by decide +kernel⟩
  · exact hread true ⟨[], by decide, nofun⟩
  · exact hread false ⟨[], by decide, nofun⟩

end PastSpan

end AskSql
