import AskSql.Proofs.Question.Coverage
import AskSql.Proofs.Question.Quoted
import AskSql.Proofs.Schema.SurfaceForms
import AskSql.Proofs.Text.Digits

/-!
# Spans of time

So many units of time before today are one token wherever a token begins with them.  Of all rules
the one of counted spans takes the most of the words: the rules in front of it match nothing there,
and those behind it stop at the first word (`TokenRule.matchAt?_behind`).  The token is in its
normal form as it is written, and it is no part of a pair, so it is there in the end
(`PastSpan.token_mem_tokenize`).
-/

namespace AskSql

open Text Text.Pattern

/-- A unit in which spans of time are counted. -/
inductive TimeUnit where
  | day | week | month | year

namespace TimeUnit

/-- The unit as a word. -/
def name : TimeUnit → String
  | day => "day"
  | week => "week"
  | month => "month"
  | year => "year"

/-- How many days a unit counts for. -/
def days : TimeUnit → Nat
  | day => 1
  | week => 7
  | month => 30
  | year => 365

end TimeUnit

/-- So many units of time before today, in words. -/
structure PastSpan where
  digits : List Char
  unit : TimeUnit
  plural : Bool
  digits_ne_nil : digits ≠ []
  digits_ascii : ∀ c ∈ digits, isAsciiDigit c = true

namespace PastSpan

/-- The unit, with an `s` in the plural. -/
def unitChars (span : PastSpan) : List Char :=
  span.unit.name.toList ++ if span.plural then ['s'] else []

/-- The words for the span. -/
def chars (span : PastSpan) : List Char :=
  "last ".toList ++ (span.digits ++ ' ' :: span.unitChars)

/-- The words for the span stand in a text behind `front`, and no word goes on behind them. -/
def StandsBehind (span : PastSpan) (front : List Char) (text : String) : Prop :=
  ∃ back, text.toList = front ++ (span.chars ++ back) ∧ ∀ c ∈ back.head?, isWordChar c = false

/-- The number that the digits write. -/
def value (span : PastSpan) : Nat :=
  Nat.ofDigitChars 10 span.digits 0

theorem chars_append (span : PastSpan) (back : List Char) :
    span.chars ++ back =
      'l' :: 'a' :: 's' :: 't' :: ' ' :: (span.digits ++ ' ' :: (span.unitChars ++ back)) := by
  rw [chars, List.append_assoc, List.append_assoc]
  rfl

/-! ### The number -/

variable {span : PastSpan} {rest : List Char} {captured : List (Nat × String)}

theorem isBlank_head_digits (span : PastSpan) (rest : List Char) :
    ∀ x ∈ (span.digits ++ rest).head?, isBlank x = false := by
  obtain ⟨c, cs, hdigits⟩ := List.exists_cons_of_ne_nil span.digits_ne_nil
  intro x hx
  rw [hdigits, List.cons_append, List.head?_cons] at hx
  obtain rfl := Option.some.inj hx
  exact isBlank_of_isAsciiDigit (span.digits_ascii c (hdigits ▸ List.mem_cons_self))

theorem isBlank_head_unitChars (span : PastSpan) (rest : List Char) :
    ∀ x ∈ (span.unitChars ++ rest).head?, isBlank x = false := by
  intro x hx
  rw [unitChars] at hx
  cases hunit : span.unit <;> rw [hunit] at hx <;> obtain rfl := Option.some.inj hx <;> rfl

theorem isDecimalDigit_digits (span : PastSpan) : ∀ x ∈ span.digits, isDecimalDigit x = true :=
  fun x hx => isDecimalDigit_of_isAsciiDigit (span.digits_ascii x hx)

/-- No blank stands in front of a digit of the number. -/
theorem ends_blanks_digits (p : Pattern) (d : Cursor)
    (hd : ∃ x ∈ span.digits, ∃ more, d.rest = x :: more) : (seq blanks p).ends d = [] := by
  obtain ⟨last, rest, captured⟩ := d
  obtain ⟨x, hx, more, rfl⟩ := hd
  refine ends_seq_eq_nil (ends_blanks_eq_nil fun y hy => ?_)
  obtain rfl := Option.some.inj hy
  exact isBlank_of_isAsciiDigit (span.digits_ascii x hx)

theorem isDecimalDigit_head_space (rest : List Char) :
    ∀ x ∈ (' ' :: rest).head?, isDecimalDigit x = false := by
  intro x hx
  obtain rfl := Option.some.inj hx
  rfl

/-- The digits between two spaces are read in one way. -/
theorem ends_count (p : Pattern) (last : Option Char)
    (hrest : ∀ x ∈ rest.head?, isBlank x = false) :
    (seq blanks (seq Pattern.digits (seq blanks p))).ends
        ⟨last, ' ' :: (span.digits ++ ' ' :: rest), captured⟩ =
      p.ends ⟨some ' ', rest, captured⟩ := by
  obtain ⟨last', hrun⟩ := ends_seq_run span.digits_ne_nil span.isDecimalDigit_digits
    (isDecimalDigit_head_space rest) (ends_blanks_digits p)
  rw [ends_seq_of_ends (ends_blanks_space (span.isBlank_head_digits _)), Pattern.digits, hrun,
    ends_seq_of_ends (ends_blanks_space hrest)]

/-- As `ends_count`, where the digits are kept under a number. -/
theorem ends_count_captured (p : Pattern) (index : Nat) (last : Option Char)
    (hrest : ∀ x ∈ rest.head?, isBlank x = false) :
    (seq blanks (seq (capture index Pattern.digits) (seq blanks p))).ends
        ⟨last, ' ' :: (span.digits ++ ' ' :: rest), captured⟩ =
      p.ends ⟨some ' ', rest, (index, String.ofList span.digits) :: captured⟩ := by
  obtain ⟨last', hrun⟩ := ends_seq_capture_run span.digits_ne_nil span.isDecimalDigit_digits
    (isDecimalDigit_head_space rest) (ends_blanks_digits p) index
  rw [ends_seq_of_ends (ends_blanks_space (span.isBlank_head_digits _)), Pattern.digits, hrun,
    ends_seq_of_ends (ends_blanks_space hrest)]

end PastSpan

/-! ### The rules -/

namespace TokenRule

variable {back : List Char}

theorem ends_units (unit : TimeUnit) (last : Option Char) (rest : List Char) :
    (ofAlt (["day", "week", "month", "year"].map perhapsPlural)).ends
        ⟨last, unit.name.toList ++ rest, []⟩ =
      (optional (word "s")).ends ⟨unit.name.toList.getLast?, rest, []⟩ := by
  cases unit with
  | day => exact (List.append_nil _).trans (List.append_nil _)
  | week => exact (List.append_nil _).trans (List.append_nil _)
  | month => exact (List.append_nil _).trans (List.append_nil _)
  | year => exact List.append_nil _

/-- A character that is part of no word does not stand for an `s`. -/
theorem folds_s_eq_false {c : Char} (h : isWordChar c = false) : folds 's' c = false := by
  -- three characters stand for an `s`, and words may go on with each of them
  have hword : ['s', 'S', 'ſ'].all isWordChar = true := by decide +kernel
  have hne : ∀ d ∈ ['s', 'S', 'ſ'], c.toNat ≠ d.toNat := by
    intro d hd heq
    rw [Char.toNat_inj.1 heq, List.all_eq_true.1 hword d hd] at h
    cases h
  simp only [List.forall_mem_cons] at hne
  obtain ⟨hsmall, hcapital, hlong, -⟩ := hne
  have hlower : c.toLower.toNat ≠ 's'.toNat := by
    rw [toNat_toLower]
    split
    · intro heq
      exact hcapital (Nat.add_right_cancel (m := 32) heq)
    · exact hsmall
  have hsame : c ≠ 's' := fun heq => hsmall (congrArg Char.toNat heq)
  have hfold : c.toLower ≠ 's' := fun heq => hlower (congrArg Char.toNat heq)
  have hsharp : c.toNat ≠ 0x17F := hlong
  simp [folds, hsame, hfold, hsharp]

/-- An `s` is taken where it stands, and left out where no word goes on. -/
theorem ends_plural (accepts : Char → Bool) (hs : accepts 's' = true)
    (hword : ∀ c ∈ back.head?, isWordChar c = false) (hback : ∀ c ∈ back.head?, accepts c = false)
    {last : Option Char} (hlast : last.any isWordChar = true) (plural : Bool)
    (captured : List (Nat × String)) :
    ∃ last', ((seq (optional (one accepts)) edge).ends
      ⟨last, (if plural then ['s'] else []) ++ back, captured⟩).head? =
        some ⟨last', back, captured⟩ := by
  cases plural with
  | false =>
      have hnone : (one accepts).ends ⟨last, back, captured⟩ = [] := ends_one_eq_nil hback
      have hends : (optional (one accepts)).ends ⟨last, back, captured⟩ =
          [⟨last, back, captured⟩] := by
        rw [Pattern.optional, ends, hnone, List.nil_append, ends]
      refine ⟨last, ?_⟩
      rw [if_neg Bool.false_ne_true, List.nil_append, ends_seq_of_ends hends,
        ends_edge_behind hlast hword, List.head?_cons]
  | true =>
      have hends : (optional (one accepts)).ends ⟨last, 's' :: back, captured⟩ =
          [⟨some 's', back, captured⟩, ⟨last, 's' :: back, captured⟩] := by
        rw [Pattern.optional, ends, ends_one_cons hs, ends, List.singleton_append]
      -- taking the letter is tried first, so leaving it out does not count
      refine ⟨some 's', ?_⟩
      rw [if_pos rfl, List.singleton_append, ends, hends, List.flatMap_cons,
        ends_edge_behind rfl hword, List.singleton_append, List.head?_cons]

/-- The rule takes the words for the span, and stops behind them. -/
theorem matchAt?_pastSpan (span : PastSpan) (hback : ∀ c ∈ back.head?, isWordChar c = false) :
    ∃ d, (seq pastSpan edge).matchAt? none (span.chars ++ back) = some d ∧ d.rest = back := by
  have hkeyword : (phrases ["last", "past", "previous", "trailing"]).ends
      ⟨none, span.chars ++ back, []⟩ =
        [⟨some 't', ' ' :: (span.digits ++ ' ' :: (span.unitChars ++ back)), []⟩] := by
    rw [span.chars_append]
    rfl
  have hends : pastSpan.ends ⟨none, span.chars ++ back, []⟩ =
      (optional (word "s")).ends ⟨span.unit.name.toList.getLast?,
        (if span.plural then ['s'] else []) ++ back, []⟩ := by
    show (seq _ (seq blanks (seq digits (seq blanks
      (ofAlt (["day", "week", "month", "year"].map perhapsPlural)))))).ends _ = _
    rw [ends_seq_of_ends hkeyword, span.ends_count _ _ (span.isBlank_head_unitChars back),
      PastSpan.unitChars, List.append_assoc, ends_units]
  have hletter : (span.unit.name.toList.getLast?).any isWordChar = true := by
    cases span.unit <;> rfl
  have hplain : ∀ c ∈ back.head?, folds 's' c = false :=
    fun c hc => folds_s_eq_false (hback c hc)
  obtain ⟨last, hplural⟩ := ends_plural (folds 's') (by decide) hback hplain hletter span.plural []
  refine ⟨⟨last, back, []⟩, ?_, rfl⟩
  rw [matchAt?, ends, hends]
  exact hplural

/-- The rule of spans that are counted. -/
def pastRule : TokenRule :=
  ofWords .temporal 0.95 pastSpan

/-- The rules in front of that of counted spans match nothing that begins like one. -/
theorem matchAt?_before (rest : List Char) : ∀ r ∈ all.take 2,
    r.pattern.matchAt? none ('l' :: 'a' :: 's' :: 't' :: ' ' :: rest) = none := by
  simp only [all, List.take_succ_cons, List.take_zero, List.forall_mem_cons]
  exact ⟨rfl, rfl, nofun⟩

/-- The rule of spans that are named takes no digit behind `last`. -/
theorem matchAt?_namedSpan {c : Char} (hc : isAsciiDigit c = true) (rest : List Char) :
    (seq namedSpan edge).matchAt? none ('l' :: 'a' :: 's' :: 't' :: ' ' :: c :: rest) = none := by
  -- behind the keyword a digit stands where a unit would
  have hunit : (phrases ["day", "week", "month", "quarter", "year"]).ends
      ⟨some ' ', c :: rest, []⟩ = [] := by
    have hall : ∀ c ∈ ['0', '1', '2', '3', '4', '5', '6', '7', '8', '9'],
        (phrases ["day", "week", "month", "quarter", "year"]).ends ⟨some ' ', c :: rest, []⟩ =
          [] := by
      simp only [List.forall_mem_cons]
      exact ⟨rfl, rfl, rfl, rfl, rfl, rfl, rfl, rfl, rfl, rfl, nofun⟩
    exact hall c (mem_of_isAsciiDigit hc)
  have hkeyword : (phrases ["last", "this", "previous", "past", "current"]).ends
      ⟨none, 'l' :: 'a' :: 's' :: 't' :: ' ' :: c :: rest, []⟩ =
        [⟨some 't', ' ' :: c :: rest, []⟩] := rfl
  have hblank : ∀ x ∈ (c :: rest).head?, isBlank x = false := by
    intro x hx
    obtain rfl := Option.some.inj hx
    exact isBlank_of_isAsciiDigit hc
  have hfirst : (ofSeq [phrases ["last", "this", "previous", "past", "current"], blanks,
      phrases ["day", "week", "month", "quarter", "year"]]).ends
        ⟨none, 'l' :: 'a' :: 's' :: 't' :: ' ' :: c :: rest, []⟩ = [] := by
    show (seq _ (seq blanks _)).ends _ = _
    rw [ends_seq_of_ends hkeyword, ends_seq_of_ends (ends_blanks_space hblank), ofSeq, hunit]
  have hsecond : (phrases ["today", "yesterday", "year to date", "ytd"]).ends
      ⟨none, 'l' :: 'a' :: 's' :: 't' :: ' ' :: c :: rest, []⟩ = [] := rfl
  have hnone : namedSpan.ends ⟨none, 'l' :: 'a' :: 's' :: 't' :: ' ' :: c :: rest, []⟩ = [] := by
    rw [namedSpan, ends, hfirst, hsecond, List.append_nil]
  rw [matchAt?, ends_seq_eq_nil hnone, List.head?_nil]

/-- The rules behind these go no further than `last`. -/
theorem matchAt?_behind (rest : List Char) : ∀ r ∈ all.drop 4, ∀ d,
    r.pattern.matchAt? none ('l' :: 'a' :: 's' :: 't' :: ' ' :: rest) = some d →
      d.rest = ' ' :: rest := by
  -- the only rule that matches is that of limits
  have hfound : (all.drop 4).filterMap (fun r =>
      (r.pattern.matchAt? none ('l' :: 'a' :: 's' :: 't' :: ' ' :: rest)).map Cursor.rest) =
        [' ' :: rest] := rfl
  intro r hr d hd
  refine List.mem_singleton.1 (hfound ▸ List.mem_filterMap.2 ⟨r, hr, ?_⟩)
  rw [hd, Option.map_some]

end TokenRule

/-! ### The words for a span -/

namespace PastSpan

open Name

variable (span : PastSpan)

/-- The words for the span, as a text. -/
def wording : String :=
  String.ofList span.chars

theorem toList_wording : span.wording.toList = span.chars :=
  String.toList_ofList

/-- The words that the wording consists of. -/
def parts : List String :=
  ["last", String.ofList span.digits, String.ofList span.unitChars]

theorem isStem_of_mem_parts : ∀ w ∈ span.parts, IsStem w := by
  have hunit : IsStem (String.ofList span.unitChars) := by
    rw [unitChars]
    cases span.unit <;> cases span.plural <;> decide
  have hdigits : IsStem (String.ofList span.digits) := by
    refine ⟨fun h => span.digits_ne_nil (String.ofList_inj.1 h), fun c hc => ?_⟩
    rw [String.toList_ofList] at hc
    rw [isStemChar, span.digits_ascii c hc, Bool.or_true]
  simp only [parts, List.forall_mem_cons]
  exact ⟨by decide, hdigits, hunit, List.forall_mem_nil _⟩

theorem small_of_isStemChar {c : Char} (h : isStemChar c = true) :
    c.toNat < 0x80 ∧ isAsciiCapital c = false := by
  have := isStemChar_iff_toNat.1 h
  exact ⟨by omega, isAsciiCapital_of_isStemChar h⟩

theorem wording_eq : span.wording = " ".intercalate span.parts := by
  rw [← String.toList_inj, toList_wording, String.toList_intercalate]
  simp [chars, parts]

theorem words_wording : words span.wording = span.parts := by
  rw [wording_eq, words_intercalate fun w hw => (span.isStem_of_mem_parts w hw).isSnake]

theorem lowercase_wording : lowercase span.wording = span.wording := by
  refine lowercase_eq_self fun c hc => ?_
  rw [wording_eq] at hc
  obtain hspace | ⟨w, hw, hc⟩ := mem_intercalate hc
  · obtain rfl := List.mem_singleton.1 hspace
    decide
  · exact small_of_isStemChar ((span.isStem_of_mem_parts w hw).plain c hc)

/-- No part is an abbreviation. -/
theorem expandAbbreviation_part : ∀ w ∈ span.parts, expandAbbreviation w = w := by
  have hletter : ∀ p ∈ abbreviations, p.1.toList.head?.any isAsciiDigit = false := by decide
  have hdigits : abbreviations.lookup (String.ofList span.digits) = none := by
    rw [List.lookup_eq_none_iff]
    intro p hp
    obtain ⟨c, cs, hdigits⟩ := List.exists_cons_of_ne_nil span.digits_ne_nil
    refine bne_iff_ne.2 fun heq => ?_
    have hfirst := hletter p hp
    rw [← heq, String.toList_ofList, hdigits, List.head?_cons, Option.any_some,
      span.digits_ascii c (hdigits ▸ List.mem_cons_self)] at hfirst
    cases hfirst
  have hunit : expandAbbreviation (String.ofList span.unitChars) =
      String.ofList span.unitChars := by
    rw [unitChars]
    cases span.unit <;> cases span.plural <;> decide
  simp only [parts, List.forall_mem_cons]
  exact ⟨by decide, by rw [expandAbbreviation, hdigits, Option.getD_none], hunit,
    List.forall_mem_nil _⟩

/-- The words for a span are in their normal form. -/
theorem normalizeWords_wording : normalizeWords span.wording = span.wording := by
  have hpart : ∀ w ∈ span.parts, expandAbbreviation (lowercase w) = w := by
    intro w hw
    have hstem := span.isStem_of_mem_parts w hw
    have hsmall : lowercase w = w :=
      lowercase_eq_self fun c hc => small_of_isStemChar (hstem.plain c hc)
    rw [hsmall, span.expandAbbreviation_part w hw]
  rw [normalizeWords, words_wording, List.map_congr_left hpart, List.map_id', wording_eq]

end PastSpan

/-! ### One token -/

namespace Lexeme

variable {span : PastSpan} {back : List Char}

/-- The rule of counted spans takes more of the words for a span than any other. -/
theorem bestRule?_pastSpan (hback : ∀ c ∈ back.head?, isWordChar c = false) :
    bestRule? (span.chars ++ back) = some (TokenRule.pastRule, span.chars.length) := by
  have hrules : TokenRule.all = TokenRule.all.take 2 ++
      (TokenRule.pastRule :: .ofWords .temporal 0.9 TokenRule.namedSpan :: TokenRule.all.drop 4) :=
    rfl
  -- of two matches of one length the first counts, so the rules behind may take no more than this
  have hbefore : (TokenRule.all.take 2).filterMap (matched? (span.chars ++ back)) = [] := by
    refine List.filterMap_eq_nil_iff.2 fun r hr => ?_
    rw [matched?, span.chars_append, TokenRule.matchAt?_before _ r hr, Option.bind_none]
  have hhere : matched? (span.chars ++ back) TokenRule.pastRule =
      some (TokenRule.pastRule, span.chars.length) := by
    obtain ⟨d, hmatch, hrest⟩ := TokenRule.matchAt?_pastSpan span hback
    refine matched?_eq_some hmatch ?_ ?_
    · rw [hrest, List.length_append, Nat.add_comm]
    · simp [PastSpan.chars]
  have hnamed : matched? (span.chars ++ back) (.ofWords .temporal 0.9 TokenRule.namedSpan) =
      none := by
    obtain ⟨c, cs, hdigits⟩ := List.exists_cons_of_ne_nil span.digits_ne_nil
    have hc := span.digits_ascii c (hdigits ▸ List.mem_cons_self)
    rw [matched?, TokenRule.ofWords, span.chars_append, hdigits, List.cons_append,
      TokenRule.matchAt?_namedSpan hc, Option.bind_none]
  have hbehind : ∀ f ∈ (TokenRule.all.drop 4).filterMap (matched? (span.chars ++ back)),
      f.2 ≤ span.chars.length := by
    intro f hf
    obtain ⟨r, hr, hmatched⟩ := List.mem_filterMap.1 hf
    rw [matched?, span.chars_append] at hmatched
    obtain ⟨d, hmatch, hfound⟩ := Option.bind_eq_some_iff.1 hmatched
    have hrest := TokenRule.matchAt?_behind _ r hr d hmatch
    split at hfound
    · obtain rfl := Option.some.inj hfound
      simp only [hrest, PastSpan.chars, List.length_cons, List.length_append]
      have : "last ".toList.length = 5 := rfl
      omega
    · cases hfound
  rw [bestRule?, hrules, List.filterMap_append, hbefore, List.nil_append,
    List.filterMap_cons_some hhere, List.filterMap_cons_none hnamed, List.foldl_cons]
  exact foldl_longer_of_whole hbehind

end Lexeme

namespace Token

/-- Where reading comes to a run that one rule takes as it is, it makes one token of it. -/
theorem scan_run (words : Dictionary) {r : TokenRule} {run back : List Char} (hne : run ≠ [])
    (hblank : run.head?.any isBlank = false)
    (hrule : Lexeme.bestRule? (run ++ back) = some (r, run.length)) (hquoted : r.kind ≠ .quoted)
    (hnormal : normalizeWords (String.ofList run) = String.ofList run) (position : Nat)
    (gap : List Char) :
    scan words position gap (run ++ back) =
      (String.ofList gap, ⟨String.ofList run, r.kind, position, (String.ofList run).utf8ByteSize,
          String.ofList run, r.confidence⟩) ::
        scan words (position + (String.ofList run).utf8ByteSize) [] back := by
  obtain ⟨c, cs, rfl⟩ := List.exists_cons_of_ne_nil hne
  have hc : ¬isBlank c = true := Bool.eq_false_iff.1 hblank
  have htake : (c :: cs ++ back).take (c :: cs).length = c :: cs := List.take_left' rfl
  have hread : Lexeme.read words c (cs ++ back) =
      ⟨cs.length, r.kind, String.ofList (c :: cs), r.confidence⟩ := by
    rw [Lexeme.read, ← List.cons_append, hrule]
    dsimp only
    rw [Lexeme.ofRule, htake, if_neg hquoted, hnormal]
    rfl
  rw [List.cons_append, scan_lexeme _ _ _ hc, hread]
  simp only [List.take_left, List.drop_left]

/-- A token whose text is no word of a pair, and which is no part of a name, is no part of a
pair. -/
theorem pairKind?_eq_none {words : Dictionary} {t : Token} (hliteral : t.mayMerge = false)
    (hwords : ∀ w ∈ ["by", "group", "grouped", "order", "ordered", "sort", "sorted"],
      (lowercase t.text == w) = false) (s : Token) :
    pairKind? words s t = none ∧ pairKind? words t s = none := by
  simp only [List.forall_mem_cons] at hwords
  obtain ⟨hby, hgroup, hgrouped, horder, hordered, hsort, hsorted, -⟩ := hwords
  constructor
  · simp [pairKind?, hby, hliteral]
  · simp [pairKind?, hgroup, hgrouped, horder, hordered, hsort, hsorted, hliteral]

end Token

namespace PastSpan

variable (span : PastSpan)

/-- The token for the words of a span that begin at a byte. -/
def token (position : Nat) : Token where
  text := span.wording
  kind := .temporal
  position
  length := span.wording.utf8ByteSize
  normalized := span.wording
  confidence := 0.95

variable {back : List Char} (hback : ∀ c ∈ back.head?, isWordChar c = false)

include hback in
/-- Where reading comes to the words for a span, it makes one token of them. -/
theorem scan_chars (words : Dictionary) (position : Nat) (gap : List Char) :
    Token.scan words position gap (span.chars ++ back) =
      (String.ofList gap, span.token position) ::
        Token.scan words (position + span.wording.utf8ByteSize) [] back := by
  have hhead : ∃ cs, span.chars = 'l' :: cs :=
    ⟨_, by rw [← List.append_nil span.chars, span.chars_append]⟩
  obtain ⟨cs, hchars⟩ := hhead
  have hne : span.chars ≠ [] := by
    rw [hchars]
    exact List.cons_ne_nil _ _
  have hblank : span.chars.head?.any isBlank = false := by
    rw [hchars]
    rfl
  exact Token.scan_run words hne hblank (Lexeme.bestRule?_pastSpan hback) (by decide)
    span.normalizeWords_wording position gap

end PastSpan

namespace PastSpan

variable {span : PastSpan} {words : Dictionary} {question : String} {front : List Char}

/-- The wording is no word that begins otherwise. -/
theorem beq_wording {ws : List String} (h : ∀ w ∈ ws, "last ".toList.isPrefixOf w.toList = false) :
    ∀ w ∈ ws, (span.wording == w) = false := by
  intro w hw
  refine beq_false_of_ne fun heq => ?_
  have hprefix : "last ".toList.isPrefixOf w.toList = true := by
    rw [← heq, toList_wording]
    exact List.isPrefixOf_iff_prefix.2 (List.prefix_append _ _)
  rw [h w hw] at hprefix
  cases hprefix

/-- A span is no part of a pair. -/
theorem pairKind?_token (s : Token) (position : Nat) :
    Token.pairKind? words s (span.token position) = none ∧
      Token.pairKind? words (span.token position) s = none := by
  have hwords : ∀ w ∈ ["by", "group", "grouped", "order", "ordered", "sort", "sorted"],
      (lowercase (span.token position).text == w) = false := by
    have hsmall : lowercase (span.token position).text = span.wording := span.lowercase_wording
    rw [hsmall]
    exact beq_wording (by decide)
  exact Token.pairKind?_eq_none rfl hwords s

/-- A question of these words only is one token. -/
theorem tokenize_wording (span : PastSpan) (words : Dictionary) :
    tokenize words span.wording = [span.token 0] := by
  have hback : ∀ c ∈ ([] : List Char).head?, isWordChar c = false := by simp
  have hscan : Token.scan words 0 [] span.chars = [("", span.token 0)] := by
    rw [← List.append_nil span.chars, span.scan_chars hback, Token.scan_nil]
  rw [tokenize, span.toList_wording, hscan]
  rfl

/-- The words for a span are one token, if a token begins where they do. -/
theorem token_mem_tokenize (hstands : span.StandsBehind front question)
    (hstart : front = [] ∨ ∃ t ∈ tokenize words question, t.position = Token.bytes front) :
    span.token (Token.bytes front) ∈ tokenize words question := by
  obtain ⟨back, hquestion, hback⟩ := hstands
  have hscan : ∃ row gap, Token.scan words 0 [] question.toList =
      row ++ Token.scan words (Token.bytes front) gap (span.chars ++ back) := by
    obtain rfl | ⟨t, ht, hposition⟩ := hstart
    · exact ⟨[], [], by rw [hquestion]; rfl⟩
    · obtain ⟨s, hs, hsame⟩ := Token.exists_of_mem_mergePairs ht
      rw [hquestion] at hs ⊢
      rw [← Nat.zero_add (Token.bytes front)]
      exact Token.scan_append ⟨s, hs, by omega⟩
  obtain ⟨row, gap, hrow⟩ := hscan
  rw [span.scan_chars hback] at hrow
  refine Token.mem_mergePairs ?_ (fun s => (pairKind?_token s _).1) fun s =>
    (pairKind?_token s _).2
  rw [hrow, List.map_append, List.map_cons]
  exact List.mem_append_right _ List.mem_cons_self

end PastSpan

end AskSql
