import AskSql.Proofs.Question.Recognition
import AskSql.Proofs.Question.Spans
import AskSql.Question.Component

/-!
# Days of spans of time

The days of a span are noted on its entity (`PastSpan.note?_entity`).  They are the number of the
span times the days of its unit, cut off at what 32 bits hold.  The number itself has to fit in 32
bits: one that does not is passed over, and the span is taken for one unit by the end of its
wording, which a plural does not have.  Where nothing else is said about time, these are the days
that the question as a whole looks back (`Components.windowDays_eq`).
-/

namespace AskSql

open Text

namespace PastSpan

open Entity

variable (span : PastSpan)

/-- The days that the span stands for, at most as many as 32 bits hold. -/
def daysBack : Nat :=
  min (span.value * span.unit.days) (2 ^ 32 - 1)

/-- The days that are noted for the span.  A number that does not fit in 32 bits is no number: the
span is then taken for one unit, or in the plural for none. -/
def notedDays? : Option Nat :=
  if span.value < 2 ^ 32 then some span.daysBack
  else if span.plural then none
  else some span.unit.days

theorem dropPlural_unitChars :
    dropPlural (String.ofList span.unitChars) = span.unit.name := by
  rw [unitChars]
  cases span.unit <;> cases span.plural <;> decide

theorem daysOf_unit : Wording.daysOf span.value span.unit.name = span.daysBack := by
  rw [daysBack, Wording.daysOf]
  cases span.unit <;> rfl

theorem natural?_digits (bits : Nat) : natural? bits (String.ofList span.digits) =
    if span.value < 2 ^ bits then some span.value else none :=
  natural?_ofList span.digits_ne_nil span.digits_ascii bits

theorem countedSpan?_wording : countedSpan? span.wording =
    if span.value < 2 ^ 32 then some (span.value, String.ofList span.unitChars) else none := by
  rw [countedSpan?, words_wording, parts]
  dsimp only
  rw [natural?_digits]
  by_cases h : span.value < 2 ^ 32
  · rw [if_pos h, if_pos h]
    rfl
  · rw [if_neg h, if_neg h]
    rfl

theorem month?_wording : Wording.month? span.wording = none := by
  have hmonths : ∀ w ∈ Wording.months, (span.wording == w) = false := beq_wording (by decide)
  have hnone : Wording.months.findIdx? (· == span.wording) = none := by
    rw [List.findIdx?_eq_none_iff]
    intro w hw
    rw [Bool.beq_comm]
    exact hmonths w hw
  rw [Wording.month?, hnone, Option.map_none]

/-- Taken for one unit, the span has no number, and no unit if it is in the plural. -/
theorem namedSpan?_wording : (namedSpan? span.wording).map Prod.fst =
    if span.plural then none else some span.unit.days := by
  -- the rules for spans without a number look at the ending, where a plural has no unit
  have hends (ending : String) : Name.endsIn span.wording ending =
      ending.toList.reverse.isPrefixOf
        (span.unitChars.reverse ++ ' ' :: (span.digits.reverse ++ "last ".toList.reverse)) := by
    rw [Name.endsIn, toList_wording, chars, List.isSuffixOf, List.reverse_append,
      List.reverse_append, List.reverse_cons]
    simp
  have hwords : ∀ w ∈ ["today", "yesterday", "ytd", "year to date"], (span.wording == w) = false :=
    beq_wording (by decide)
  simp only [List.forall_mem_cons] at hwords
  obtain ⟨htoday, hyesterday, hytd, hdate, -⟩ := hwords
  simp only [namedSpan?, htoday, hyesterday, hytd, hdate, hends, unitChars]
  cases span.unit <;> cases span.plural <;> rfl

/-- The span as it is meant, before its number is looked at. -/
def bareEntity (position : Nat) : Entity :=
  (ofToken (span.token position) .timeRange 0.95 "kind").named span.wording

/-- The span as it is meant. -/
def entity (position : Nat) : Entity :=
  (span.bareEntity position).withSpan span.wording

theorem note?_withDays (position : Nat) (days : String) :
    ((span.bareEntity position).withNote "days" days).note? "days" = some days := rfl

/-- The months of a span are noted beside its days. -/
theorem note?_withMonths (e : Entity) (months : String) :
    (e.withNote "months" months).note? "days" = e.note? "days" :=
  note?_withNote_of_ne (by decide) e months

theorem note?_entity (position : Nat) :
    (span.entity position).note? "days" = span.notedDays?.map toString := by
  rw [entity, withSpan, countedSpan?_wording, month?_wording, notedDays?]
  by_cases h : span.value < 2 ^ 32
  · rw [if_pos h, if_pos h]
    dsimp only
    rw [dropPlural_unitChars, daysOf_unit]
    split
    · rw [note?_withMonths, note?_withDays, Option.map_some]
    · rw [note?_withDays, Option.map_some]
  · -- a number that does not fit leaves the wording to the rules for spans without one
    rw [if_neg h, if_neg h, ← namedSpan?_wording]
    cases namedSpan? span.wording with
    | none => rfl
    | some named =>
        obtain ⟨days, months⟩ := named
        cases months with
        | none => exact note?_withDays span position _
        | some n => exact (note?_withMonths _ _).trans (note?_withDays span position _)

theorem lt_of_notedDays? {days : Nat} (h : span.notedDays? = some days) : days < 2 ^ 32 := by
  have hunit : span.unit.days < 2 ^ 32 := by
    cases span.unit <;> decide
  have hmost : span.daysBack < 2 ^ 32 := by
    rw [daysBack]
    omega
  rw [notedDays?] at h
  split at h
  · exact Option.some.inj h ▸ hmost
  · split at h
    · cases h
    · exact Option.some.inj h ▸ hunit

/-- The days that are noted are read again as they are. -/
theorem noted?_entity (position : Nat) :
    (span.entity position).noted? "days" = span.notedDays? := by
  rw [noted?, note?_entity]
  cases hdays : span.notedDays? with
  | none => rfl
  | some days => exact natural?_toString (span.lt_of_notedDays? hdays)

/-- The span is what an entity means that begins at a byte. -/
structure IsMeant (position : Nat) (e : Entity) : Prop where
  kind : e.kind = .timeRange
  text : e.text = span.wording
  position : e.position = position
  days : e.note? "days" = span.notedDays?.map toString

theorem isMeant_entity (position : Nat) : span.IsMeant position (span.entity position) := by
  obtain ⟨notes, hentity⟩ := withSpan_eq (span.bareEntity position) span.wording
  refine ⟨?_, ?_, ?_, span.note?_entity position⟩ <;> rw [PastSpan.entity, hentity] <;> rfl

theorem confidence_entity (position : Nat) : (span.entity position).confidence = 0.95 := by
  obtain ⟨notes, hentity⟩ := withSpan_eq (span.bareEntity position) span.wording
  rw [entity, hentity]
  rfl

/-- A span is compared with nothing. -/
theorem isComparison_entity (position : Nat) : (span.entity position).isComparison = false := by
  rw [isComparison, (span.isMeant_entity position).kind]
  rfl

/-- The tables that are mentioned make no difference to a span. -/
theorem settle_entity (mentioned : List String) (penalty : Float) (position : Nat) :
    settle mentioned penalty (span.entity position) = span.entity position := by
  rw [settle, (span.isMeant_entity position).kind]
  rfl

variable {span}

/-- The token of a span means the span, whatever stands around it. -/
theorem entity_mem_recognize {tokens : List Token} {position : Nat}
    (ht : span.token position ∈ tokens) (s : Schema) {settings : RecognizerSettings}
    (hsure : settings.minConfidence < 0.95) :
    span.entity position ∈ recognize s settings tokens := by
  have hread : some (span.entity position) ∈ recognizeFrom (Lexicon.ofSchema s settings.synonyms)
      settings.fuzzyThreshold [] tokens := mem_recognizeFrom ht rfl
  refine List.mem_map.2
    ⟨span.entity position, List.mem_filter.2 ⟨?_, ?_⟩, span.settle_entity _ _ position⟩
  · exact List.mem_filterMap.2 ⟨some (span.entity position), hread, rfl⟩
  · rw [confidence_entity]
    exact decide_eq_true hsure

/-- A question of the words for a span only means nothing else. -/
theorem recognize_wording (span : PastSpan) (words : Dictionary) (s : Schema)
    {settings : RecognizerSettings} (hsure : settings.minConfidence < 0.95) :
    recognize s settings (tokenize words span.wording) = [span.entity 0] := by
  have hread : recognizeFrom (Lexicon.ofSchema s settings.synonyms) settings.fuzzyThreshold []
      [span.token 0] = [some (span.entity 0)] := rfl
  have hfound : [some (span.entity 0)].filterMap id = [span.entity 0] := rfl
  have hkept : decide (settings.minConfidence < (span.entity 0).confidence) = true := by
    rw [confidence_entity]
    exact decide_eq_true hsure
  rw [recognize, span.tokenize_wording, hread, hfound, List.filter_singleton, hkept]
  exact congrArg (fun e => [e]) (span.settle_entity _ _ 0)

end PastSpan

namespace Components

theorem conditionsFrom_eq_nil {before es : List Entity}
    (hplain : ∀ f ∈ es, f.isComparison = false) : conditionsFrom before es = [] := by
  induction es generalizing before with
  | nil => rfl
  | cons f after ih =>
      obtain ⟨hf, hafter⟩ := List.forall_mem_cons.1 hplain
      rw [conditionsFrom, hf, if_neg Bool.false_ne_true, List.nil_append, ih hafter]

/-- The only span of time, compared with nothing, gives the days that the question looks back. -/
theorem windowDays_eq {es : List Entity} {e : Entity} (he : e ∈ es) (hkind : e.kind = .timeRange)
    (honly : ∀ f ∈ es, f.kind = .timeRange → f = e) (hplain : ∀ f ∈ es, f.isComparison = false)
    (tokens : List Token) : (ofQuestion tokens es).windowDays = e.noted? "days" := by
  let spans := es.filter fun f => f.kind == .timeRange
  have hspans : (ofQuestion tokens es).windowDays = spans.findSome? (·.noted? "days") := by
    let unused : Entity × Nat → Option Entity := fun p =>
      if p.1.kind == .timeRange && !(([] : List Nat).contains p.2) then some p.1 else none
    have hunused : unused = Option.guard (fun f : Entity => f.kind == .timeRange) ∘ Prod.fst := by
      funext p
      simp [unused, Option.guard]
    have hpick : es.zipIdx.filterMap unused = spans := by
      rw [hunused, ← List.filterMap_map, List.zipIdx_map_fst, List.filterMap_eq_filter]
    rw [ofQuestion, conditionsFrom_eq_nil hplain]
    exact congrArg (·.findSome? (·.noted? "days")) hpick
  have hall : ∀ f ∈ spans, f = e := by
    intro f hf
    obtain ⟨hmem, hrange⟩ := List.mem_filter.1 hf
    exact honly f hmem (eq_of_beq hrange)
  have hmem : e ∈ spans := List.mem_filter.2 ⟨he, beq_iff_eq.2 hkind⟩
  rw [hspans]
  -- all time ranges are the same entity, so the first one is
  cases hdays : e.noted? "days" with
  | none =>
      rw [List.findSome?_eq_none_iff]
      intro f hf
      rw [hall f hf, hdays]
  | some days =>
      obtain ⟨f, more, hcons⟩ := List.exists_cons_of_ne_nil (List.ne_nil_of_mem hmem)
      have hfirst := hall f (hcons ▸ List.mem_cons_self)
      rw [hcons, hfirst, List.findSome?_cons, hdays]

end Components

end AskSql
