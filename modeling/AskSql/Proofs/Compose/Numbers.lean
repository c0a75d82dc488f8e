import AskSql.Proofs.Compose.Conditions
import AskSql.Proofs.Compose.LookBack
import AskSql.Proofs.Query.Truth
import AskSql.Proofs.Question.Limits

/-!
# Whole numbers of a question

A number of rows is read in two ways.  The reader that searches for a pattern takes the digits as a
number of 64 bits (`Phrasing.portion_eq`), and the one that makes tokens of the words takes them as
a float first.  A number that is compared with is taken as a whole number of 64 bits, and as a float
if it is none.  So what is asked for is what comes of the digits just if no float stands between, or
one that the number fits into (`DigitRun.kept_iff`).
-/

namespace AskSql

open Text Text.Pattern

/-! ### Numbers of rows -/

namespace Phrasing

variable {n : DigitRun} {front back : List Char} {text : String}

/-- The search for a number of rows comes to the place behind `front`, where no word goes on: it
finds nothing that begins in front of it. -/
structure LeadsToRows (front : List Char) (text : String) : Prop where
  apart : ∀ c ∈ front.getLast?, isWordChar c = false
  first : ∀ i < front.length,
    endOfOrder.matchAt? (front.take i).getLast? (text.toList.drop i) = none

/-- The first match of digits that are kept takes the numeral. -/
theorem exists_ends_capture_digits (n : DigitRun) (hback : ∀ c ∈ back.head?, isWordChar c = false)
    (last : Option Char) (captured : List (Nat × String)) (index : Nat) :
    ∃ shorter, (capture index Pattern.digits).ends ⟨last, n.digits ++ back, captured⟩ =
      ⟨n.digits.getLast?, back, (index, n.text) :: captured⟩ :: shorter := by
  obtain ⟨shorter, hdigits⟩ := n.exists_ends_digits hback last captured
  exact ⟨_, by rw [ends, hdigits, List.map_cons, upTo_append]; rfl⟩

/-- The pattern takes the words for a number of rows where they stand. -/
theorem matchAt?_endOfOrder (n : DigitRun) {last : Option Char}
    (hlast : last.any isWordChar = false) (hback : ∀ c ∈ back.head?, isWordChar c = false) :
    endOfOrder.matchAt? last (n.topChars ++ back) =
      some ⟨n.digits.getLast?, back, [(2, n.text), (1, "top")]⟩ := by
  have hbefore : edge.ends ⟨last, n.topChars ++ back, []⟩ = [⟨last, n.topChars ++ back, []⟩] :=
    ends_edge_before hlast rfl
  have htop : (exacts ["top", "first", "bottom"]).ends
      ⟨last, ['t', 'o', 'p'] ++ ' ' :: (n.digits ++ back), []⟩ =
        [⟨some 'p', ' ' :: (n.digits ++ back), []⟩] := rfl
  have hword : (capture 1 (exacts ["top", "first", "bottom"])).ends
      ⟨last, n.topChars ++ back, []⟩ = [⟨some 'p', ' ' :: (n.digits ++ back), [(1, "top")]⟩] :=
    ends_capture_of_ends htop 1
  -- the digits may be taken in part too, but the longest match comes first
  obtain ⟨shorter, hdigits⟩ :=
    exists_ends_capture_digits n hback (some ' ') [(1, "top")] 2
  rw [matchAt?]
  show ((seq edge (seq (capture 1 (exacts ["top", "first", "bottom"])) (seq blanks
    (seq (capture 2 Pattern.digits) edge)))).ends _).head? = _
  rw [ends_seq_of_ends hbefore, ends_seq_of_ends hword,
    ends_seq_of_ends (ends_blanks_space (n.isBlank_head_digits back))]
  exact head?_ends_seq hdigits (by rw [n.ends_edge_digits hback]; rfl)

/-- The rows that are asked for are the best ones, as many as the numeral says in 64 bits. -/
theorem portion_eq {p : Phrasing} (hfront : LeadsToRows front p.text)
    (hstands : n.TopStandsBehind front p.text) :
    p.portion = .best (natural? 64 n.text) .desc := by
  obtain ⟨back, htext, hback⟩ := hstands
  -- nothing is found on the way to the phrase
  have hpassed : ∀ before more, front = before ++ more → more ≠ [] →
      endOfOrder.matchAt? (before.getLast?.or none) (more ++ (n.topChars ++ back)) = none := by
    intro before more hsplit hmore
    have hlength : before.length < front.length := by
      rw [hsplit, List.length_append]
      exact Nat.lt_add_of_pos_right (List.length_pos_iff.2 hmore)
    have hnone := hfront.first before.length hlength
    rwa [htext, hsplit, List.append_assoc, List.take_left, List.drop_left,
      ← Option.or_none (o := before.getLast?)] at hnone
  have hlast : (front.getLast?.or none).any isWordChar = false := by
    rw [Option.or_none]
    exact (Option.any_eq_false _ _).2 hfront.apart
  have hmatch := matchAt?_endOfOrder n hlast hback.apart
  obtain ⟨found, hfound, hcaptured⟩ : ∃ found, endOfOrder.find? p.text = some found ∧
      found.captured = [(2, n.text), (1, "top")] := by
    rw [find?, htext, findFrom?_passed hpassed]
    rw [DigitRun.topChars, List.cons_append] at hmatch ⊢
    rw [findFrom?, hmatch]
    exact ⟨_, rfl, rfl⟩
  have hword : found.get? 1 = some "top" := by
    rw [Found.get?, hcaptured]
    rfl
  have hcount : found.get? 2 = some n.text := by
    rw [Found.get?, hcaptured]
    rfl
  have hdirection : (some "top" == some "bottom") = false := by decide
  simp only [portion, hfound, hword, hcount, hdirection, Option.bind_some, Bool.false_eq_true,
    if_false]

end Phrasing

namespace Heuristic

variable {s : Schema} {count : Option Nat} {direction : Direction}

theorem limit_takePortion {portion : Phrasing.Portion} (h : portion = .best count direction)
    (base : String) (q : Query) : (takePortion s base q portion).limit = count := by
  rw [h, takePortion]

theorem limit_draft {p : Phrasing} (h : p.portion = .best count direction) (base : String)
    (joins : List Join) : (draft s p base joins).limit = count :=
  limit_takePortion h _ _

/-- A query has as many of the best rows as the question asks for. -/
theorem limit_of_query {default : Option String} {text : String} {q : Query}
    (hportion : (Phrasing.ofText text).portion = .best count direction)
    (h : query s default text = .ok q) : q.limit = count := by
  obtain ⟨base, -, -, hq⟩ := query_eq_ok h
  rw [hq]
  exact limit_draft hportion _ _

end Heuristic

/-! ### Numbers that are compared with -/

namespace Literal

variable {z : Int}

/-- The value of a literal is this whole number. -/
def Denotes (v : Literal) (z : Int) : Prop :=
  v.toValue = .integer z ∨ v.toValue = .number (((z : ℚ) : WithTop ℚ) : WithBot (WithTop ℚ))

/-- The whole number has 64 bits, or is a float. -/
def Representable (z : Int) : Prop :=
  (-2 ^ 63 ≤ z ∧ z < 2 ^ 63) ∨ Decimal.FitsMantissa z.natAbs ∧ z.natAbs < 2 ^ 1024

theorem denotes_integer_iff {m : Int} : (integer m).Denotes z ↔ m = z := by
  simp [Denotes, toValue]

theorem denotes_float_iff {x : Float} :
    (float x).Denotes z ↔ x.isFinite = true ∧ Decimal.value x = z := by
  cases hnan : x.isNaN with
  | true =>
      have hinfinite : ¬x.isFinite = true := fun hfinite => by
        rw [(Decimal.number_of_isFinite hfinite).1] at hnan
        cases hnan
      have hvalue : (float x).toValue = .notANumber := if_pos hnan
      simp [Denotes, hvalue, hinfinite]
  | false =>
      have hvalue : (float x).toValue = .number (Decimal.extended x) :=
        if_neg (Bool.eq_false_iff.1 hnan)
      rw [Denotes, hvalue, Decimal.extended]
      split
      · next hfinite => simp [hfinite]
      · next hinfinite => split <;> simp [hinfinite]

end Literal

namespace DigitRun

variable (n : DigitRun) (sign : Sign)

theorem natAbs_apply : (sign.apply n.value).natAbs = n.value := by
  cases sign with
  | none | plus => rfl
  | minus => exact Int.natAbs_neg _

/-- A number that is compared with is a whole number where 64 bits hold it, and else a float. -/
theorem ofValue_signed :
    Literal.ofValue (n.signed sign) .number =
      if -2 ^ 63 ≤ sign.apply n.value ∧ sign.apply n.value < 2 ^ 63 then
        .integer (sign.apply n.value)
      else .float (sign.applyFloat (nearestFloat n.value 0)) := by
  by_cases hfits : -2 ^ 63 ≤ sign.apply n.value ∧ sign.apply n.value < 2 ^ 63
  · simp only [Literal.ofValue, n.int64?_signed, if_pos hfits]
  · simp only [Literal.ofValue, n.int64?_signed, if_neg hfits, n.real?_signed]

/-- The float behind a sign is the number itself just if that of the digits is. -/
theorem value_applyFloat_iff (x : Float) (k : Nat) :
    ((sign.applyFloat x).isFinite = true ∧ Decimal.value (sign.applyFloat x) = sign.apply k) ↔
      x.isFinite = true ∧ Decimal.value x = k := by
  cases sign with
  | none | plus => rfl
  | minus =>
      rw [Sign.applyFloat, Decimal.isFinite_neg]
      refine and_congr_right fun hfinite => ?_
      rw [Decimal.value_neg hfinite, Sign.apply, Int.cast_neg, neg_inj, Int.cast_natCast]

/-- The literal of a number is the number just if 64 bits hold it, or a float. -/
theorem denotes_ofValue_iff :
    (Literal.ofValue (n.signed sign) .number).Denotes (sign.apply n.value) ↔
      Literal.Representable (sign.apply n.value) := by
  rw [n.ofValue_signed, Literal.Representable, natAbs_apply]
  split
  · next hfits => simp only [Literal.denotes_integer_iff, hfits, and_self, true_or]
  · next hlarge =>
      rw [Literal.denotes_float_iff, value_applyFloat_iff, Decimal.value_nearestFloat_iff]
      simp only [hlarge, false_or]

end DigitRun

namespace ConditionPart

/-- The column can be made out, over a tree that then has grown to `u`, and is compared with a
number. -/
structure ComparesNumber (s : Schema) (t u : JoinTree) (part : ConditionPart) (op : Comparison)
    (column : Reference) (value : String) : Prop where
  operator : Comparison.symbols.lookup part.operator = some op
  column : part.column? s t = some (column, u)
  value : part.value = some value
  kind : part.valueKind = some .number

variable {s : Schema} {t u : JoinTree} {part : ConditionPart} {op : Comparison}
  {column : Reference} {value : String}

/-- The condition has the right side that the number becomes. -/
theorem ComparesNumber.condition_eq (h : part.ComparesNumber s t u op column value)
    {rhs : Comparand} (hrhs : part.comparand? op value .number = some rhs) :
    part.condition s t = (some ⟨.column column, part.effective op, rhs⟩, u) := by
  have hcomparison : part.comparison? s u op value .number = some ((op, rhs), u) :=
    congrArg (Option.map fun rhs => ((op, rhs), u)) hrhs
  exact condition_eq_some_iff.2 ⟨op, column, u, value, .number, op, rhs, h.operator, h.column,
    h.value, h.kind, hcomparison, rfl⟩

/-- A value that is compared with alone. -/
theorem comparand?_eq (hlike : op ≠ .like) (hnot : op ≠ .notLike) (hrange : op ≠ .between)
    (kind : EntityKind) :
    part.comparand? op value kind = some (.literal (Literal.ofValue value kind)) := by
  cases op <;> first | rfl | contradiction

end ConditionPart

namespace DigitRun

variable {part : ConditionPart} {op : Comparison}

/-- A text without a percent sign is looked for anywhere. -/
theorem comparand?_like (n : DigitRun) (sign : Sign) (h : op = .like ∨ op = .notLike) :
    part.comparand? op (n.signed sign) .number =
      some (.literal (ConditionPart.anywhere (n.signed sign))) := by
  have hpercent : '%' ∉ sign.chars ++ n.digits := by
    rw [List.mem_append]
    rintro (hsign | hdigit)
    · cases sign <;> revert hsign <;> decide
    · exact absurd (n.digits_ascii '%' hdigit) (by decide)
  have hplain : ¬(n.signed sign).toList.contains '%' = true := by
    rwa [signed, String.toList_ofList, List.contains_iff_mem]
  obtain rfl | rfl := h <;> rw [ConditionPart.comparand?, if_neg hplain]

/-- What the code makes of the whole numbers of a question.

The number of rows behind `top`, where it has 64 bits: the search for the pattern gives just this
number, for whatever base table there is.  The reader of tokens gives the number that comes back
from the nearest float, so it is this number just if it has 53 bits at most and zeros behind them,
or is the last one of 64 bits.

A number that is compared with: the condition is made out in any case.  Where it is likened to texts
it stays a text.  Otherwise its literal is this number just if it is one of 64 bits or, again, a
float. -/
theorem kept_iff (n : DigitRun) :
    (n.value < 2 ^ 64 →
      (∀ (words : Dictionary) (question : String) (front : List Char) (es : List Entity),
        n.TopStandsBehind front question → LeadsToLimit words question front →
        (Components.ofQuestion (tokenize words question) es).limit =
            some (nearestFloat n.value 0).toUInt64.toNat ∧
          ((nearestFloat n.value 0).toUInt64.toNat = n.value ↔
            Decimal.FitsMantissa n.value ∨ n.value = 2 ^ 64 - 1)) ∧
      ∀ (s : Schema) (default : Option String) (question : String) (front : List Char),
        n.TopStandsBehind front (lowercase question) →
        Phrasing.LeadsToRows front (lowercase question) →
        (∀ base, Heuristic.baseTable s default (Phrasing.ofText question).words = .ok base →
          s.HasPlainNames → Name.IsPlain base →
            ∃ q, Heuristic.query s default question = .ok q) ∧
        ∀ q, Heuristic.query s default question = .ok q → q.limit = some n.value) ∧
    ∀ (sign : Sign) (s : Schema) (t u : JoinTree) (part : ConditionPart) (op : Comparison)
      (column : Reference), part.ComparesNumber s t u op column (n.signed sign) →
      (op = .like ∨ op = .notLike → part.condition s t = (some ⟨.column column, part.effective op,
        .literal (ConditionPart.anywhere (n.signed sign))⟩, u)) ∧
      (op = .between → ∀ (m : DigitRun) (sign' : Sign), part.high = some (m.signed sign') →
        ∃ low high, part.condition s t =
            (some ⟨.column column, part.effective op, .range low high⟩, u) ∧
          (low.Denotes (sign.apply n.value) ↔ Literal.Representable (sign.apply n.value)) ∧
          (high.Denotes (sign'.apply m.value) ↔ Literal.Representable (sign'.apply m.value))) ∧
      (op ≠ .like → op ≠ .notLike → op ≠ .between →
        ∃ v, part.condition s t = (some ⟨.column column, part.effective op, .literal v⟩, u) ∧
          (v.Denotes (sign.apply n.value) ↔ Literal.Representable (sign.apply n.value))) := by
  refine ⟨fun hbits => ⟨?_, ?_⟩, ?_⟩
  -- the reader of tokens
  · intro words question front es hstands hleads
    exact ⟨n.limit?_eq hstands hleads, Decimal.toUInt64_nearestFloat_eq_iff hbits⟩
  -- the reader that searches for the pattern
  · intro s default question front hstands hfront
    have hportion : (Phrasing.ofText question).portion = .best (natural? 64 n.text) .desc :=
      Phrasing.portion_eq hfront hstands
    refine ⟨fun base hbase hplain hplainBase => Heuristic.exists_query hplain hbase hplainBase,
      fun q hquery => ?_⟩
    rw [Heuristic.limit_of_query hportion hquery, n.natural?_text, if_pos hbits]
  -- comparisons
  · intro sign s t u part op column hpart
    refine ⟨fun hlike => hpart.condition_eq (n.comparand?_like sign hlike), ?_, ?_⟩
    · rintro rfl m sign' hhigh
      refine ⟨_, _, hpart.condition_eq ?_, n.denotes_ofValue_iff sign, m.denotes_ofValue_iff sign'⟩
      rw [ConditionPart.comparand?, hhigh]
      rfl
    · intro hlike hnot hrange
      exact ⟨_, hpart.condition_eq (ConditionPart.comparand?_eq hlike hnot hrange _),
        n.denotes_ofValue_iff sign⟩

/-- The number five. -/
def five : DigitRun where
  digits := ['5']
  digits_ne_nil := by decide
  digits_ascii := List.all_eq_true.1 rfl

/-- A comparison of the number of an order. -/
def comparedId (operator value : String) (high : Option String) : ConditionPart where
  column := some "id"
  table := some "orders"
  operator
  value := some value
  valueKind := some .number
  high
  modifier := none

theorem comparesNumber_comparedId {operator : String} {op : Comparison}
    (hop : Comparison.symbols.lookup operator = some op) (value : String) (high : Option String) :
    (comparedId operator value high).ComparesNumber PastSpan.datedOrders (.ofBase "orders")
      (.ofBase "orders") op ⟨"orders", "id", none⟩ value := by
  have hid : PastSpan.datedOrders.column? "orders" "id" =
      some { name := "id", type := .integer } := by decide +kernel
  have hthere : (JoinTree.ofBase "orders").join? PastSpan.datedOrders "orders" =
      some (.ofBase "orders") := by
    have hpath : PastSpan.datedOrders.joinPath? ["orders"] "orders" = some [] := by decide +kernel
    rw [JoinTree.join?, JoinTree.tables_ofBase, hpath]
    rfl
  have hcolumn : Mention.resolve? PastSpan.datedOrders (.ofBase "orders")
      { column := some "id", table := some "orders" } =
        some (⟨"orders", "id", none⟩, .ofBase "orders") := by
    simp only [Mention.resolve?, hid, hthere]
    rfl
  exact ⟨hop, hcolumn, rfl, rfl⟩

/-- Five orders, and orders with the number five, or a number from five to five. -/
theorem kept_iff_five :
    (Components.ofQuestion (tokenize [("orders", "orders")] "show top 5 orders") []).limit =
      some 5 ∧
    (∃ q, Heuristic.query PastSpan.datedOrders none "show top 5 orders" = .ok q ∧
      q.limit = some 5) ∧
    (∃ v, (comparedId ">" "-5" none).condition PastSpan.datedOrders (.ofBase "orders") =
      (some ⟨.column ⟨"orders", "id", none⟩, .gt, .literal v⟩, .ofBase "orders") ∧
        v.Denotes (-5)) ∧
    ∃ low high, (comparedId "between" "-5" (some "5")).condition PastSpan.datedOrders
      (.ofBase "orders") =
        (some ⟨.column ⟨"orders", "id", none⟩, .between, .range low high⟩, .ofBase "orders") ∧
        low.Denotes (-5) ∧ high.Denotes 5 := by
  obtain ⟨hrows, hcompared⟩ := kept_iff five
  obtain ⟨hread, hsought⟩ := hrows (by decide)
  have hstands : five.TopStandsBehind "show ".toList "show top 5 orders" :=
    ⟨' ' :: "orders".toList, by decide +kernel, endsNumeral_space _⟩
  have hsmall : lowercase "show top 5 orders" = "show top 5 orders" := by decide +kernel
  have hleads : LeadsToLimit [("orders", "orders")] "show top 5 orders" "show ".toList :=
    ⟨1, by decide +kernel⟩
  have hfront : Phrasing.LeadsToRows "show ".toList "show top 5 orders" :=
    ⟨(Option.any_eq_false _ _).1 rfl, by decide +kernel⟩
  have hbase : Heuristic.baseTable PastSpan.datedOrders none
      (Phrasing.ofText "show top 5 orders").words = .ok "orders" := by decide +kernel
  obtain ⟨hexists, hlimit⟩ := hsought PastSpan.datedOrders none "show top 5 orders"
    "show ".toList (by rwa [hsmall]) (by rwa [hsmall])
  obtain ⟨q, hquery⟩ := hexists "orders" hbase PastSpan.hasPlainNames_datedOrders
    ⟨by decide, by decide⟩
  obtain ⟨hlimited, hexact⟩ := hread [("orders", "orders")] "show top 5 orders" "show ".toList []
    hstands hleads
  have hsmallNumber : Decimal.FitsMantissa five.value := Decimal.fitsMantissa_of_lt (by decide)
  have hminusFive : "-5" = five.signed .minus := by decide
  have hplusFive : "5" = five.signed .none := by decide
  have hfive : Literal.Representable 5 := .inl (by decide)
  have hminus : Literal.Representable (-5) := .inl (by decide)
  refine ⟨hlimited.trans (congrArg some (hexact.2 (.inl hsmallNumber))),
    ⟨q, hquery, hlimit q hquery⟩, ?_, ?_⟩
  · have habove : (comparedId ">" "-5" none).ComparesNumber _ _ _ .gt _ "-5" :=
      comparesNumber_comparedId (by decide) _ _
    rw [hminusFive] at habove ⊢
    obtain ⟨v, hv, hdenotes⟩ :=
      (hcompared .minus _ _ _ _ _ _ habove).2.2 (by decide) (by decide) (by decide)
    exact ⟨v, hv, hdenotes.2 hminus⟩
  · have hbetween : (comparedId "between" "-5" (some "5")).ComparesNumber _ _ _ .between _ "-5" :=
      comparesNumber_comparedId (by decide) _ _
    rw [hminusFive] at hbetween ⊢
    obtain ⟨low, high, hrange, hlow, hhigh⟩ := (hcompared .minus _ _ _ _ _ _ hbetween).2.1 rfl five
      .none (congrArg some hplusFive)
    exact ⟨low, high, hrange, hlow.2 hminus, hhigh.2 hfive⟩

/-- The first number that no float holds. -/
def oddRows : DigitRun where
  digits := ['9', '0', '0', '7', '1', '9', '9', '2', '5', '4', '7', '4', '0', '9', '9', '3']
  digits_ne_nil := by decide
  digits_ascii := List.all_eq_true.1 rfl

/-- A number that neither 64 bits with a sign nor a float holds. -/
def oddId : DigitRun where
  digits := ['9', '2', '2', '3', '3', '7', '2', '0', '3', '6', '8', '5', '4', '7', '7', '5', '8',
    '0', '9']
  digits_ne_nil := by decide
  digits_ascii := List.all_eq_true.1 rfl

/-- One row less than the question asks for, which the other reader does give, and a number that is
not the one in the question. -/
theorem manyDigits_lost :
    (Components.ofQuestion (tokenize [("orders", "orders")] "top 9007199254740993 orders")
      []).limit = some 9007199254740992 ∧
    (Heuristic.query PastSpan.datedOrders none "top 9007199254740993 orders").map Query.limit =
      .ok (some 9007199254740993) ∧
    ∃ v, (comparedId ">" "9223372036854775809" none).condition PastSpan.datedOrders
      (.ofBase "orders") =
        (some ⟨.column ⟨"orders", "id", none⟩, .gt, .literal v⟩, .ofBase "orders") ∧
        ¬v.Denotes 9223372036854775809 := by
  refine ⟨?_, by decide +kernel, ?_⟩
  · have hstands : oddRows.TopStandsBehind [] "top 9007199254740993 orders" :=
      ⟨' ' :: "orders".toList, by decide +kernel, endsNumeral_space _⟩
    have hleads : LeadsToLimit [("orders", "orders")] "top 9007199254740993 orders" [] :=
      ⟨0, by decide +kernel⟩
    have hback : (nearestFloat oddRows.value 0).toUInt64.toNat = 9007199254740992 := by
      decide +kernel
    exact (oddRows.limit?_eq hstands hleads).trans (congrArg some hback)
  · have hwritten : "9223372036854775809" = oddId.signed .none := by decide +kernel
    have habove : (comparedId ">" "9223372036854775809" none).ComparesNumber _ _ _ .gt _
        "9223372036854775809" := comparesNumber_comparedId (by decide) _ _
    have hother : ¬Literal.Representable 9223372036854775809 := by
      rintro (⟨-, hlt⟩ | ⟨hfits, -⟩)
      · exact absurd hlt (by decide)
      · exact Decimal.not_fitsMantissa (by decide) (by decide) hfits
    rw [hwritten] at habove ⊢
    exact ⟨_, habove.condition_eq rfl, fun h => hother ((oddId.denotes_ofValue_iff .none).1 h)⟩

end DigitRun

end AskSql
