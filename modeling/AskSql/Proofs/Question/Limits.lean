import AskSql.Proofs.Question.Spans
import AskSql.Proofs.Text.Numerals
import AskSql.Question.Component

/-!
# Numbers of rows

The words `top` and a numeral are two tokens, one behind the other, wherever a token begins with
them and the numeral ends (`DigitRun.exists_tokenize_eq`): no rule but that of limits takes more
than the first word, and behind it no rule but that of numbers takes a digit, save that of days,
which wants more than digits.  The limit of the question is the float nearest to the number, made a
number of 64 bits again (`DigitRun.limit?_eq`).
-/

namespace AskSql

open Text Text.Pattern

/-! ### Matches and what is left of them -/

namespace Text.Pattern

variable {accepts : Char → Bool} {rest : List Char} {captured : List (Nat × String)}

/-- The first match of two patterns in a row, where the second one goes on from the first match of
the first one. -/
theorem head?_ends_seq {p q : Pattern} {c d e : Cursor} {more : List Cursor}
    (hp : p.ends c = d :: more) (hq : (q.ends d).head? = some e) :
    ((seq p q).ends c).head? = some e := by
  rw [ends, hp, List.flatMap_cons, List.head?_append, hq, Option.some_or]

theorem mem_ends_seq {p q : Pattern} {c d : Cursor} (h : d ∈ (seq p q).ends c) :
    ∃ e ∈ p.ends c, d ∈ q.ends e :=
  List.mem_flatMap.1 h

theorem rest_of_mem_ends_one {c d : Cursor} (h : d ∈ (one accepts).ends c) :
    ∃ x, c.rest = x :: d.rest ∧ accepts x = true := by
  rw [ends] at h
  split at h
  · cases h
  · next x rest heq =>
      split at h
      · next hx =>
          obtain rfl := List.mem_singleton.1 h
          exact ⟨x, heq, hx⟩
      · cases h

/-- So many characters of a kind in a row. -/
theorem rest_of_mem_ends_times {n : Nat} {c d : Cursor}
    (h : d ∈ ((one accepts).times n).ends c) :
    ∃ xs, c.rest = xs ++ d.rest ∧ ∀ x ∈ xs, accepts x = true := by
  induction n generalizing c with
  | zero =>
      obtain rfl := List.mem_singleton.1 h
      exact ⟨[], rfl, nofun⟩
  | succ n ih =>
      rw [times, List.replicate_succ, ends_ofSeq_cons, List.mem_flatMap] at h
      obtain ⟨e, he, hd⟩ := h
      obtain ⟨x, hx, haccepts⟩ := rest_of_mem_ends_one he
      obtain ⟨xs, hxs, hall⟩ := ih hd
      exact ⟨x :: xs, by rw [hx, hxs, List.cons_append],
        List.forall_mem_cons.2 ⟨haccepts, hall⟩⟩

/-! ### What a pattern cannot begin with -/

variable (xs : List Char)

/-- No match that begins with one of the characters goes past it. -/
def stays : Pattern → Bool
  | empty => true
  | one accepts => xs.all fun x => !accepts x
  | seq p q => p.stays && q.stays
  | alt p q => p.stays && q.stays
  | repeated p => p.stays
  | edge => true
  | capture _ p => p.stays

/-- No match begins with one of the characters. -/
def refuses : Pattern → Bool
  | empty => false
  | one accepts => xs.all fun x => !accepts x
  | seq p q => p.refuses || (p.stays xs && q.refuses)
  | alt p q => p.refuses && q.refuses
  | repeated _ => false
  | edge => false
  | capture _ p => p.refuses

variable {xs} {x : Char}

theorem ends_one_of_all (hx : x ∈ xs) (h : xs.all (fun x => !accepts x) = true) {c : Cursor}
    (hc : c.rest.head? = some x) : (one accepts).ends c = [] := by
  obtain ⟨last, rest, captured⟩ := c
  refine ends_one_eq_nil fun y hy => ?_
  obtain rfl := Option.some.inj (hc.symm.trans hy)
  simpa using List.all_eq_true.1 h x hx

/-- By induction on the pattern; a repetition whose body stays makes no step at all. -/
theorem rest_of_stays (hx : x ∈ xs) {p : Pattern} (hp : p.stays xs = true) {c d : Cursor}
    (hc : c.rest.head? = some x) (hd : d ∈ p.ends c) : d.rest = c.rest := by
  -- by the pattern, of which no part goes past the character
  induction p generalizing c d with
  | empty => rw [List.mem_singleton.1 hd]
  | one accepts =>
      rw [ends_one_of_all hx hp hc] at hd
      cases hd
  | seq p q ihp ihq =>
      obtain ⟨hp, hq⟩ := Bool.and_eq_true_iff.1 hp
      obtain ⟨e, he, hd⟩ := mem_ends_seq hd
      have hsame := ihp hp hc he
      exact (ihq hq (hsame ▸ hc) hd).trans hsame
  | alt p q ihp ihq =>
      obtain ⟨hp, hq⟩ := Bool.and_eq_true_iff.1 hp
      obtain hd | hd := List.mem_append.1 hd
      · exact ihp hp hc hd
      · exact ihq hq hc hd
  | repeated p ih =>
      have hstuck : (p.ends c).filter (fun d => d.rest.length < c.rest.length) = [] := by
        refine List.filter_eq_nil_iff.2 fun e he => ?_
        rw [ih hp hc he]
        simp
      rw [ends] at hd
      cases hlength : c.rest.length with
      | zero =>
          rw [hlength] at hd
          rw [List.mem_singleton.1 hd]
      | succ n =>
          rw [hlength, repeatEnds, hstuck] at hd
          rw [List.mem_singleton.1 hd]
  | edge => rw [eq_of_mem_ends_edge hd]
  | capture index p ih =>
      obtain ⟨e, he, rfl⟩ := List.mem_map.1 hd
      exact ih (d := e) hp hc he

theorem ends_of_refuses (hx : x ∈ xs) {p : Pattern} (hp : p.refuses xs = true) {c : Cursor}
    (hc : c.rest.head? = some x) : p.ends c = [] := by
  induction p generalizing c with
  | empty | repeated _ _ | edge => cases hp
  | one accepts => exact ends_one_of_all hx hp hc
  | seq p q ihp ihq =>
      obtain hp | hq := Bool.or_eq_true_iff.1 hp
      · exact ends_seq_eq_nil (ihp hp hc)
      · obtain ⟨hstays, hq⟩ := Bool.and_eq_true_iff.1 hq
        refine List.flatMap_eq_nil_iff.2 fun e he => ?_
        exact ihq hq ((rest_of_stays hx hstays hc he).symm ▸ hc)
  | alt p q ihp ihq =>
      obtain ⟨hp, hq⟩ := Bool.and_eq_true_iff.1 hp
      rw [ends, ihp hp hc, ihq hq hc, List.append_nil]
  | capture index p ih => rw [ends, ih hp hc, List.map_nil]

end Text.Pattern

/-- Only letters have other forms. -/
theorem eq_of_folds {s c : Char} (hs : isAsciiSmall s = false) (h : folds s c = true) : c = s := by
  simpa [folds, hs] using h

theorem isWordChar_of_isDecimalDigit {c : Char} (h : isDecimalDigit c = true) :
    isWordChar c = true := by
  simp [isWordChar, h]

/-- What is no part of a word is no digit. -/
theorem not_isDecimalDigit_head {back : List Char}
    (h : ∀ c ∈ back.head?, isWordChar c = false) : ∀ c ∈ back.head?, isDecimalDigit c = false := by
  intro c hc
  have hword := h c hc
  rw [Bool.eq_false_iff] at hword ⊢
  exact fun hdigit => hword (isWordChar_of_isDecimalDigit hdigit)

theorem DigitRun.isDecimalDigit_digits (n : DigitRun) : ∀ x ∈ n.digits, isDecimalDigit x = true :=
  fun x hx => isDecimalDigit_of_isAsciiDigit (n.digits_ascii x hx)

/-- A numeral ends in front of these characters: they do not go on with a word, and do not make
the numeral a decimal or a part of a day. -/
structure EndsNumeral (back : List Char) : Prop where
  apart : ∀ c ∈ back.head?, isWordChar c = false
  whole : ∀ c d more, back = c :: d :: more → c = '.' ∨ c = '-' → isDecimalDigit d = false

theorem endsNumeral_space (more : List Char) : EndsNumeral (' ' :: more) where
  apart := (Option.any_eq_false _ _).1 rfl
  whole := by
    rintro c d rest heq (rfl | rfl) <;> cases heq

/-! ### The rules -/

namespace TokenRule

/-- The rule of limits. -/
def limitRule : TokenRule :=
  ofList .limitWord 0.85 ["top", "first", "limit", "bottom", "last"]

/-- The rule of days. -/
def dayRule : TokenRule :=
  ofWords .date 0.95 calendarDay

/-- The rule of numbers. -/
def numberRule : TokenRule :=
  ofWords .number 1.0 numeral

/-- The only rule that takes `top` and a blank behind it is that of limits. -/
theorem matches_top (rest : List Char) :
    all.filterMap (fun r => (r.pattern.matchAt? none ('t' :: 'o' :: 'p' :: ' ' :: rest)).map
      fun d => (r, d.rest)) = [(limitRule, ' ' :: rest)] := by
  rfl

/-- The rules in front of that of days, between it and that of numbers, and behind both. -/
def otherRules : List TokenRule :=
  all.take 1 ++ ((all.drop 2).take 3 ++ all.drop 6)

theorem all_eq : all = all.take 1 ++ dayRule :: ((all.drop 2).take 3 ++ numberRule :: all.drop 6) :=
  rfl

/-- No rule takes a digit but those of days and of numbers. -/
theorem matchAt?_digit {c : Char} (hc : isAsciiDigit c = true) (rest : List Char) :
    ∀ r ∈ otherRules, r.pattern.matchAt? none (c :: rest) = none := by
  have hall : otherRules.all (fun r => r.pattern.refuses "0123456789".toList) = true := by
    decide +kernel
  intro r hr
  rw [matchAt?, ends_of_refuses (mem_of_isAsciiDigit hc) (List.all_eq_true.1 hall r hr) rfl,
    List.head?_nil]

/-- A day has a line between its digits, and digits behind it. -/
theorem matchAt?_day (n : DigitRun) {back : List Char} (hback : EndsNumeral back) :
    dayRule.pattern.matchAt? none (n.digits ++ back) = none := by
  have hnone : calendarDay.ends ⟨none, n.digits ++ back, []⟩ = [] := by
    rw [List.eq_nil_iff_forall_not_mem]
    intro d hd
    obtain ⟨e, he, hd⟩ := mem_ends_seq hd
    obtain ⟨f, hf, hd⟩ := mem_ends_seq hd
    obtain ⟨g, hg, -⟩ := mem_ends_seq hd
    obtain ⟨year, hyear, hall⟩ := rest_of_mem_ends_times he
    obtain ⟨line, hline, hfolds⟩ := rest_of_mem_ends_one hf
    obtain ⟨k, hk, -⟩ := mem_ends_seq hg
    obtain ⟨x, hx, hmonth⟩ := rest_of_mem_ends_one hk
    obtain rfl : line = '-' := eq_of_folds (s := '-') rfl hfolds
    rw [hline, hx] at hyear
    -- the digits of a year end where the numeral does, or behind it, or inside of it
    obtain ⟨more, hyear, hmore⟩ | ⟨more, hsplit, hmore⟩ := List.append_eq_append_iff.1 hyear
    · cases more with
      | nil =>
          rw [hback.whole '-' x _ hmore (.inr rfl)] at hmonth
          cases hmonth
      | cons y more =>
          have hy := not_isDecimalDigit_head hback.apart y (by rw [hmore]; rfl)
          rw [hall y (by rw [hyear]; simp)] at hy
          cases hy
    · cases more with
      | nil =>
          rw [hback.whole '-' x _ hmore.symm (.inr rfl)] at hmonth
          cases hmonth
      | cons y more =>
          obtain ⟨rfl, -⟩ := List.cons.inj hmore
          exact absurd (n.digits_ascii '-' (by rw [hsplit]; simp)) (by decide)
  rw [matchAt?, dayRule, ofWords, ends_seq_eq_nil hnone, List.head?_nil]

end TokenRule

namespace DigitRun

variable (n : DigitRun) {back : List Char}

theorem isWordChar_getLast? : n.digits.getLast?.any isWordChar = true := by
  rw [List.getLast?_eq_some_getLast n.digits_ne_nil, Option.any_some]
  exact isWordChar_of_isDecimalDigit (n.isDecimalDigit_digits _ (List.getLast_mem _))

/-- The first match of digits in front of what is no word takes the numeral. -/
theorem exists_ends_digits (hback : ∀ c ∈ back.head?, isWordChar c = false) (last : Option Char)
    (captured : List (Nat × String)) :
    ∃ shorter, Pattern.digits.ends ⟨last, n.digits ++ back, captured⟩ =
      ⟨n.digits.getLast?, back, captured⟩ :: shorter := by
  obtain ⟨shorter, hends, -⟩ :=
    ends_atLeastOnce_run n.digits_ne_nil n.isDecimalDigit_digits (not_isDecimalDigit_head hback)
  exact ⟨shorter, hends⟩

/-- A word ends behind the numeral. -/
theorem ends_edge_digits (hback : ∀ c ∈ back.head?, isWordChar c = false)
    (captured : List (Nat × String)) :
    edge.ends ⟨n.digits.getLast?, back, captured⟩ = [⟨n.digits.getLast?, back, captured⟩] :=
  ends_edge_behind n.isWordChar_getLast? hback

/-- The rule of numbers takes the numeral. -/
theorem matchAt?_number (hback : EndsNumeral back) :
    TokenRule.numberRule.pattern.matchAt? none (n.digits ++ back) =
      some ⟨n.digits.getLast?, back, []⟩ := by
  obtain ⟨shorter, hdigits⟩ := n.exists_ends_digits hback.apart none []
  -- behind the digits no other digit follows a point
  have hpoint :
      (Pattern.seq (word ".") Pattern.digits).ends ⟨n.digits.getLast?, back, []⟩ = [] := by
    rw [List.eq_nil_iff_forall_not_mem]
    intro d hd
    obtain ⟨e, he, hd⟩ := mem_ends_seq hd
    obtain ⟨point, hpoint, hfolds⟩ := rest_of_mem_ends_one he
    obtain ⟨f, hf, -⟩ := mem_ends_seq hd
    obtain ⟨x, hx, hdigit⟩ := rest_of_mem_ends_one hf
    obtain rfl : point = '.' := eq_of_folds (s := '.') rfl hfolds
    rw [hback.whole '.' x _ (hpoint.trans (congrArg _ hx)) (.inl rfl)] at hdigit
    cases hdigit
  have hfraction : (Pattern.optional (Pattern.seq (word ".") Pattern.digits)).ends
      ⟨n.digits.getLast?, back, []⟩ = [⟨n.digits.getLast?, back, []⟩] := by
    rw [Pattern.optional, ends, hpoint, List.nil_append, ends]
  have hnumeral : ∃ more, TokenRule.numeral.ends ⟨none, n.digits ++ back, []⟩ =
      ⟨n.digits.getLast?, back, []⟩ :: more :=
    ⟨_, by rw [TokenRule.numeral, ends, hdigits, List.flatMap_cons, hfraction,
      List.singleton_append]⟩
  obtain ⟨more, hnumeral⟩ := hnumeral
  rw [matchAt?, TokenRule.numberRule, TokenRule.ofWords]
  exact head?_ends_seq hnumeral (by rw [n.ends_edge_digits hback.apart]; rfl)

end DigitRun

/-! ### The tokens -/

namespace Lexeme

/-- A rule with the number of characters that its match takes, if it takes any. -/
def taken? (cs : List Char) (found : TokenRule × List Char) : Option (TokenRule × Nat) :=
  if found.2.length < cs.length then some (found.1, cs.length - found.2.length) else none

/-- The rules that match a beginning, by what their matches leave. -/
theorem filterMap_matched? (cs : List Char) :
    TokenRule.all.filterMap (matched? cs) =
      (TokenRule.all.filterMap fun r => (r.pattern.matchAt? none cs).map fun d =>
        (r, d.rest)).filterMap (taken? cs) := by
  rw [List.filterMap_filterMap]
  refine List.filterMap_congr fun r _ => ?_
  rw [Option.bind_map]
  rfl

theorem bestRule?_top (rest : List Char) :
    bestRule? ('t' :: 'o' :: 'p' :: ' ' :: rest) = some (TokenRule.limitRule, 3) := by
  have htaken : taken? ('t' :: 'o' :: 'p' :: ' ' :: rest) (TokenRule.limitRule, ' ' :: rest) =
      some (TokenRule.limitRule, 3) := by
    have hlength : ('t' :: 'o' :: 'p' :: ' ' :: rest).length = (' ' :: rest).length + 3 := rfl
    have hless : (' ' :: rest).length < ('t' :: 'o' :: 'p' :: ' ' :: rest).length := by omega
    rw [taken?, if_pos hless, hlength, Nat.add_sub_cancel_left]
  rw [bestRule?, filterMap_matched?, TokenRule.matches_top, List.filterMap_cons_some htaken]
  rfl

theorem bestRule?_digits (n : DigitRun) {back : List Char} (hback : EndsNumeral back) :
    bestRule? (n.digits ++ back) = some (TokenRule.numberRule, n.digits.length) := by
  obtain ⟨c, cs, hdigits, hc⟩ := n.exists_digits_eq
  have hothers : ∀ r ∈ TokenRule.otherRules, matched? (n.digits ++ back) r = none := by
    intro r hr
    rw [matched?, hdigits, List.cons_append, TokenRule.matchAt?_digit hc _ r hr, Option.bind_none]
  simp only [TokenRule.otherRules, List.forall_mem_append] at hothers
  obtain ⟨hfront, hbetween, hbehind⟩ := hothers
  have hday : matched? (n.digits ++ back) TokenRule.dayRule = none := by
    rw [matched?, TokenRule.matchAt?_day n hback, Option.bind_none]
  have hnumber : matched? (n.digits ++ back) TokenRule.numberRule =
      some (TokenRule.numberRule, n.digits.length) :=
    matched?_eq_some (n.matchAt?_number hback) (by simp [Nat.add_comm])
      (List.length_pos_iff.2 n.digits_ne_nil)
  rw [bestRule?, TokenRule.all_eq, List.filterMap_append, List.filterMap_eq_nil_iff.2 hfront,
    List.nil_append, List.filterMap_cons_none hday, List.filterMap_append,
    List.filterMap_eq_nil_iff.2 hbetween, List.nil_append, List.filterMap_cons_some hnumber,
    List.filterMap_eq_nil_iff.2 hbehind]
  rfl

end Lexeme

namespace DigitRun

open Name

variable (n : DigitRun) {words : Dictionary} {back : List Char}

theorem isStem_text : IsStem n.text := by
  refine ⟨fun h => n.digits_ne_nil (String.ofList_inj.1 h), fun c hc => ?_⟩
  rw [text, String.toList_ofList] at hc
  rw [isStemChar, n.digits_ascii c hc, Bool.or_true]

theorem lowercase_text : lowercase n.text = n.text :=
  lowercase_eq_self fun c hc => PastSpan.small_of_isStemChar (n.isStem_text.plain c hc)

/-- Digits are in their normal form. -/
theorem normalizeWords_text : normalizeWords n.text = n.text := by
  have hwords : Text.words n.text = [n.text] := by
    have hsingle : " ".intercalate [n.text] = n.text := by simp
    rw [← hsingle, words_intercalate (by simpa using n.isStem_text.isSnake), hsingle]
  -- no abbreviation begins with a digit
  have hother : ∀ w ∈ abbreviations.map Prod.fst, (n.text == w) = false := n.beq_text (by decide)
  have hlookup : abbreviations.lookup n.text = none :=
    List.lookup_eq_none_iff.2 fun p hp =>
      bne_iff_ne.2 (ne_of_beq_false (hother p.1 (List.mem_map_of_mem hp)))
  rw [normalizeWords, hwords, List.map_singleton, n.lowercase_text, expandAbbreviation, hlookup]
  simp

/-- The token of a word that asks for the first rows. -/
def topToken (position : Nat) : Token where
  text := "top"
  kind := .limitWord
  position
  length := 3
  normalized := "top"
  confidence := 0.85

/-- The token of the numeral. -/
def token (position : Nat) : Token where
  text := n.text
  kind := .number
  position
  length := n.text.utf8ByteSize
  normalized := n.text
  confidence := 1.0

theorem isBlank_head_digits (back : List Char) :
    ∀ c ∈ (n.digits ++ back).head?, isBlank c = false := by
  obtain ⟨c, cs, hdigits, hc⟩ := n.exists_digits_eq
  rw [hdigits]
  rintro x hx
  obtain rfl := Option.some.inj hx
  exact isBlank_of_isAsciiDigit hc

/-- The word `top`, a space and the numeral. -/
def topChars : List Char :=
  't' :: 'o' :: 'p' :: ' ' :: n.digits

theorem scan_digits (words : Dictionary) (hback : EndsNumeral back) (position : Nat)
    (gap : List Char) :
    Token.scan words position gap (n.digits ++ back) =
      (String.ofList gap, n.token position) ::
        Token.scan words (position + n.text.utf8ByteSize) [] back := by
  have hblank : n.digits.head?.any isBlank = false := by
    have hhead := n.isBlank_head_digits []
    rw [List.append_nil] at hhead
    exact (Option.any_eq_false _ _).2 hhead
  exact Token.scan_run words n.digits_ne_nil hblank (Lexeme.bestRule?_digits n hback) (by decide)
    n.normalizeWords_text position gap

/-- Where reading comes to `top` and a numeral, it makes a token of each. -/
theorem scan_topChars (words : Dictionary) (hback : EndsNumeral back) (position : Nat)
    (gap : List Char) :
    Token.scan words position gap (n.topChars ++ back) =
      (String.ofList gap, topToken position) :: (" ", n.token (position + 4)) ::
        Token.scan words (position + 4 + n.text.utf8ByteSize) [] back := by
  have htop : String.ofList ['t', 'o', 'p'] = "top" := by decide
  have hnormal : normalizeWords (String.ofList ['t', 'o', 'p']) =
      String.ofList ['t', 'o', 'p'] := by
    rw [htop]
    decide
  have hspace : isBlank ' ' = true := by decide
  have hfirst := Token.scan_run words (List.cons_ne_nil 't' ['o', 'p']) rfl
    (Lexeme.bestRule?_top (n.digits ++ back)) (by decide) hnormal position gap
  rw [Token.scan_blank _ _ _ hspace, n.scan_digits words hback, htop] at hfirst
  exact hfirst

end DigitRun

namespace Token

variable {words : Dictionary}

/-- What is left behind a token comes from what was left behind the place where it begins. -/
theorem exists_append_of_mergePairs {row : List (String × Token)} {before after : List Token}
    {t : Token} (h : mergePairs words row = before ++ t :: after) :
    ∃ front gap s rest, row = front ++ (gap, s) :: rest ∧ s.position = t.position ∧
      mergePairs words ((gap, s) :: rest) = t :: after := by
  -- along the merging, where a pair takes two tokens and all others one
  fun_induction mergePairs words row generalizing before with
  | case1 => cases before <;> cases h
  | case2 gap u =>
      cases before with
      | nil =>
          obtain ⟨rfl, rfl⟩ := List.cons.inj h
          exact ⟨[], gap, u, [], rfl, rfl, rfl⟩
      | cons v before => cases before <;> cases h
  | case3 gap s gap' u row kind normalized hpair ih =>
      cases before with
      | nil =>
          obtain ⟨rfl, rfl⟩ := List.cons.inj h
          refine ⟨[], gap, s, (gap', u) :: row, rfl, rfl, ?_⟩
          simp only [mergePairs, hpair]
      | cons v before =>
          obtain ⟨front, gap'', w, rest, rfl, hposition, hmerged⟩ := ih (List.cons.inj h).2
          exact ⟨(gap, s) :: (gap', u) :: front, gap'', w, rest, rfl, hposition, hmerged⟩
  | case4 gap s gap' u row hpair ih =>
      cases before with
      | nil =>
          obtain ⟨rfl, rfl⟩ := List.cons.inj h
          refine ⟨[], gap, s, (gap', u) :: row, rfl, rfl, ?_⟩
          simp only [mergePairs, hpair]
      | cons v before =>
          obtain ⟨front, gap'', w, rest, hrow, hposition, hmerged⟩ := ih (List.cons.inj h).2
          exact ⟨(gap, s) :: front, gap'', w, rest, by rw [hrow]; rfl, hposition, hmerged⟩

/-- Of tokens that stand in order only one begins at a byte. -/
theorem append_cons_inj {front front' rest rest' : List (String × Token)}
    {s s' : String × Token} (h : front ++ s :: rest = front' ++ s' :: rest')
    (hordered : ((front ++ s :: rest).map Prod.snd).Pairwise fun s t => s.position < t.position)
    (hsame : s.2.position = s'.2.position) : s = s' ∧ rest = rest' := by
  rw [List.pairwise_map] at hordered
  have hordered' := h ▸ hordered
  rw [List.pairwise_append, List.pairwise_cons] at hordered hordered'
  obtain ⟨more, hfront, hrest⟩ | ⟨more, hfront, hrest⟩ := List.append_eq_append_iff.1 h <;>
    cases more with
    | nil =>
        first
          | exact List.cons.inj hrest
          | exact (List.cons.inj hrest).imp Eq.symm Eq.symm
    | cons r more =>
        obtain ⟨rfl, rfl⟩ := List.cons.inj hrest
        first
          | have := hordered.2.1.1 s' (by simp); omega
          | have := hordered'.2.1.1 s (by simp); omega

theorem mergePairs_cons {gap : String} {t : Token} {rest : List (String × Token)}
    (h : ∀ u ∈ rest.head?, pairKind? words t u.2 = none) :
    mergePairs words ((gap, t) :: rest) = t :: mergePairs words rest := by
  cases rest with
  | nil => rfl
  | cons u rest =>
      obtain ⟨gap', u⟩ := u
      have hpair : pairKind? words t u = none := h (gap', u) rfl
      simp only [mergePairs, hpair]

end Token

namespace DigitRun

variable (n : DigitRun) {words : Dictionary} {question : String} {front : List Char}

/-- The words `top` and the numeral stand in a text behind `front`, and the numeral ends there. -/
def TopStandsBehind (front : List Char) (text : String) : Prop :=
  ∃ back, text.toList = front ++ (n.topChars ++ back) ∧ EndsNumeral back

/-- A numeral is no part of a pair. -/
theorem pairKind?_token (s : Token) (position : Nat) :
    Token.pairKind? words s (n.token position) = none ∧
      Token.pairKind? words (n.token position) s = none := by
  have hwords : ∀ w ∈ ["by", "group", "grouped", "order", "ordered", "sort", "sorted"],
      (lowercase (n.token position).text == w) = false := by
    have hsmall : lowercase (n.token position).text = n.text := n.lowercase_text
    rw [hsmall]
    exact n.beq_text (by decide)
  exact Token.pairKind?_eq_none rfl hwords s

/-- Where a token begins with `top` and a numeral, it is the word alone, and the next one is the
numeral. -/
theorem exists_tokenize_eq (hstands : n.TopStandsBehind front question) {before after : List Token}
    {t : Token} (hread : tokenize words question = before ++ t :: after)
    (hposition : t.position = Token.bytes front) :
    t = topToken (Token.bytes front) ∧
      ∃ more, after = n.token (Token.bytes front + 4) :: more := by
  obtain ⟨back, hquestion, hback⟩ := hstands
  obtain ⟨first, gap, s, rest, hrow, hsame, hmerged⟩ := Token.exists_append_of_mergePairs hread
  have hstart : ∃ u ∈ (Token.scan words 0 [] (front ++ (n.topChars ++ back))).map Prod.snd,
      u.position = 0 + Token.bytes front := by
    refine ⟨s, ?_, by rw [Nat.zero_add, hsame, hposition]⟩
    rw [← hquestion, hrow]
    simp
  obtain ⟨row, gap', hscan⟩ := Token.scan_append hstart
  rw [Nat.zero_add, n.scan_topChars words hback, ← hquestion, hrow] at hscan
  -- both ways of reading have a token there, and only one begins at that byte
  have hordered := (Token.tokenize_covers words question).1.ordered
  rw [hrow] at hordered
  obtain ⟨hs, hrest⟩ := Token.append_cons_inj hscan (hordered.imp And.left) (hsame.trans hposition)
  obtain ⟨rfl, rfl⟩ := Prod.mk.inj hs
  have htop : ∀ u ∈ rest.head?,
      Token.pairKind? words (topToken (Token.bytes front)) u.2 = none := by
    rintro u hu
    obtain rfl : _ = u := Option.some.inj (hrest ▸ hu)
    exact (n.pairKind?_token _ _).1
  rw [Token.mergePairs_cons htop, hrest,
    Token.mergePairs_cons fun u _ => (n.pairKind?_token u.2 _).2] at hmerged
  obtain ⟨rfl, rfl⟩ := List.cons.inj hmerged
  exact ⟨rfl, _, rfl⟩

end DigitRun

/-! ### The limit -/

namespace Components

/-- Two neighbours ask for no limit. -/
def AskNoLimit (s t : Token) : Prop :=
  (s.kind == .limitWord && t.kind == .number) = false
  deriving Decidable

/-- Tokens in front of a place that ask for no limit make no difference to it. -/
theorem limit?_append {before after : List Token} {t : Token}
    (h : (before ++ [t]).IsChain AskNoLimit) :
    limit? (before ++ t :: after) = limit? (t :: after) := by
  induction before with
  | nil => rfl
  | cons s before ih =>
      obtain ⟨u, more, hu⟩ : ∃ u more, before ++ [t] = u :: more := by
        cases before with
        | nil => exact ⟨t, [], rfl⟩
        | cons u before => exact ⟨u, before ++ [t], rfl⟩
      have hsplit : before ++ t :: after = u :: (more ++ after) := by
        rw [← List.cons_append, ← hu]
        simp
      rw [List.cons_append, hu, List.isChain_cons_cons] at h
      obtain ⟨hpair, hchain⟩ := h
      have hnone : ¬(s.kind == .limitWord && u.kind == .number) = true :=
        Bool.eq_false_iff.1 hpair
      rw [List.cons_append, ← ih (hu ▸ hchain), hsplit, limit?, if_neg hnone]
      rfl

end Components

namespace DigitRun

variable (n : DigitRun) {words : Dictionary} {question : String} {front : List Char}

/-- Reading comes to a token at the place behind `front`, and no tokens up to it ask for a limit. -/
def LeadsToLimit (words : Dictionary) (question : String) (front : List Char) : Prop :=
  ∃ i, (tokenize words question)[i]?.map Token.position = some (Token.bytes front) ∧
    ((tokenize words question).take (i + 1)).IsChain Components.AskNoLimit

/-- The limit of a question is the float nearest to the number, made a number of 64 bits again. -/
theorem limit?_eq (hstands : n.TopStandsBehind front question)
    (hleads : LeadsToLimit words question front) :
    Components.limit? (tokenize words question) =
      some (nearestFloat n.value 0).toUInt64.toNat := by
  obtain ⟨i, hposition, hchain⟩ := hleads
  obtain ⟨t, ht, hposition⟩ := Option.map_eq_some_iff.1 hposition
  obtain ⟨hi, rfl⟩ := List.getElem?_eq_some_iff.1 ht
  have hread := (List.take_append_drop i (tokenize words question)).symm
  rw [List.drop_eq_getElem_cons hi] at hread
  rw [List.take_succ_eq_append_getElem hi] at hchain
  obtain ⟨htop, more, hmore⟩ := n.exists_tokenize_eq hstands hread hposition
  have hasked : ((topToken (Token.bytes front)).kind == .limitWord &&
      (n.token (Token.bytes front + 4)).kind == .number) = true := rfl
  have hnormal : (n.token (Token.bytes front + 4)).normalized = n.text := rfl
  rw [hread, Components.limit?_append hchain, htop, hmore, Components.limit?, if_pos hasked,
    hnormal, n.real?_text]
  rfl

end DigitRun

end AskSql
