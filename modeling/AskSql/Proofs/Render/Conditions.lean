import AskSql.Proofs.Query.Scope
import AskSql.Proofs.Render.Parameters
import AskSql.Proofs.Render.Quoting

/-!
# Words of conditions

With its values spelled out, a condition is a left side of one word, and a right side that is
either made of ordinary words or a range (`spoken_condition`).  What comes from the query stands
between marks or in brackets, so it cannot add a word that divides the statement.  A query inside
of a condition belongs to one word, with its brackets.

The one thing that can break this is a raw piece of a statement inside of an aggregate, which is
written as it stands; `Query.isRawFree` rules it out.
-/

namespace AskSql

open Words

/-! ### Queries without raw pieces -/

/-- The aggregate is not over a raw piece. -/
def Aggregate.isRawFree (a : Aggregate) : Bool :=
  match a.argument with
  | .raw _ => false
  | _ => true

/-- The item is no aggregate over a raw piece. -/
def Item.isRawFree : Item → Bool
  | .column _ => true
  | .aggregate a => a.isRawFree

/-- The operand is no aggregate over a raw piece. -/
def Operand.isRawFree : Operand → Bool
  | .aggregate a => a.isRawFree
  | _ => true

mutual

/-- No aggregate of the query or of a query inside of it is over a raw piece. -/
def Query.isRawFree : Query → Bool
  | ⟨_, items, joins, filters, _, having, orderBy, _, _⟩ =>
    items.all Item.isRawFree && Join.allRawFree joins && Condition.allRawFree filters &&
      Condition.allRawFree having && orderBy.all fun k => k.item.isRawFree

/-- No aggregate of the condition is over a raw piece. -/
def Condition.isRawFree : Condition → Bool
  | ⟨lhs, _, rhs⟩ => lhs.isRawFree && Comparand.isRawFree rhs

/-- No aggregate of a query that the right side is is over a raw piece. -/
def Comparand.isRawFree : Comparand → Bool
  | .subquery q => Query.isRawFree q
  | _ => true

/-- No aggregate of some conditions is over a raw piece. -/
def Condition.allRawFree : List Condition → Bool
  | [] => true
  | c :: cs => Condition.isRawFree c && Condition.allRawFree cs

/-- No aggregate of the conditions behind some joins is over a raw piece. -/
def Join.allRawFree : List Join → Bool
  | [] => true
  | ⟨_, _, _, cs⟩ :: js => Condition.allRawFree cs && Join.allRawFree js

end

/-! ### Values spelled out -/

namespace Statement

/-- The statement with its values spelled out. -/
def inline (d : Dialect) (s : Statement) : String :=
  s.read d false 1

variable (d : Dialect)

theorem read_eq_inline (n : Nat) (s : Statement) : s.read d false n = s.inline d := by
  rw [inline, read_inline, read_inline]

@[simp] theorem inline_nil : inline d [] = "" := rfl

@[simp] theorem inline_text (t : String) (rest : Statement) :
    inline d (.text t :: rest) = t ++ inline d rest := rfl

@[simp] theorem inline_value (v : Literal) (rest : Statement) :
    inline d (.value v :: rest) = v.sql d ++ inline d rest := rfl

theorem inline_append (s t : Statement) : inline d (s ++ t) = inline d s ++ inline d t := by
  rw [inline, read_append, read_eq_inline, read_eq_inline]

theorem readAll_eq_inline (n : Nat) (ss : List Statement) :
    readAll d false n ss = ss.map (inline d) := by
  induction ss generalizing n with
  | nil => rfl
  | cons s ss ih => rw [readAll, ih, read_eq_inline, List.map_cons]

theorem inline_join (between : String) (ss : List Statement) :
    inline d (join between ss) = between.intercalate (ss.map (inline d)) := by
  rw [inline, read_join, readAll_eq_inline]

end Statement

/-! ### Phrases -/

/-- A text made of ordinary words. -/
def IsPhrase (s : String) : Prop :=
  ∃ ws, Spells isSpace s.toList ws ∧ ∀ w ∈ ws, IsOrdinary w

theorem IsWord.isPhrase {s : String} (h : IsWord s) : IsPhrase s :=
  ⟨[s.toList], .one h.1, by simpa using h.2⟩

/-- A plain word of a statement that does not divide it is a phrase. -/
theorem isPhrase_of_plain {s : String} (h : s.toList.all isPlain = true)
    (hordinary : IsOrdinary s.toList) : IsPhrase s :=
  (isWord_of_plain h hordinary).isPhrase

theorem IsPhrase.append {s t : String} (hs : IsPhrase s) (ht : IsPhrase t) :
    IsPhrase (s ++ " " ++ t) := by
  obtain ⟨ws, hws, hordinary⟩ := hs
  obtain ⟨vs, hvs, hordinary'⟩ := ht
  refine ⟨ws ++ vs, ?_, List.forall_mem_append.2 ⟨hordinary, hordinary'⟩⟩
  have htext : (s ++ " " ++ t).toList = s.toList ++ ' ' :: t.toList := by simp
  rw [htext]
  exact hws.append rfl hvs

theorem IsPhrase.closed {s : String} (h : IsPhrase s) : Closed true s.toList := by
  obtain ⟨ws, hws, -⟩ := h
  exact (hws.mono isGap_of_isSpace).closed

/-- The text of a comparison is made of ordinary words, except for that of a range. -/
theorem isPhrase_comparison {op : Comparison} (h : op ≠ .between) : IsPhrase op.sql := by
  have hnot : IsPhrase "NOT" := isPhrase_of_plain (by decide) (by decide)
  have hlike : IsPhrase "LIKE" := isPhrase_of_plain (by decide) (by decide)
  have hin : IsPhrase "IN" := isPhrase_of_plain (by decide) (by decide)
  have his : IsPhrase "IS" := isPhrase_of_plain (by decide) (by decide)
  have hnull : IsPhrase "NULL" := isPhrase_of_plain (by decide) (by decide)
  cases op
  case between => exact absurd rfl h
  case like => exact hlike
  case notLike => exact hnot.append hlike
  case isIn => exact hin
  case notIn => exact hnot.append hin
  case isNull => exact his.append hnull
  case isNotNull => exact (his.append hnot).append hnull
  all_goals exact isPhrase_of_plain (by decide) (by decide)

namespace Dialect

variable (d : Dialect)

/-- A text in brackets behind a plain one is a word. -/
theorem isWord_of_group {s : String} {name inner : List Char}
    (h : s.toList = name ++ '(' :: (inner ++ [')'])) (hname : name.all isPlain = true)
    (hinner : Closed true inner) : IsWord s := by
  unfold IsWord
  rw [h]
  exact ⟨.append (.of_plain hname) (.group hinner), isOrdinary_of_mem (c := '(') (by simp) rfl⟩

theorem closed_argument {f : AggregateFunction} {x : Argument} {s : String}
    (hraw : ∀ sql, x ≠ .raw sql) (h : d.argument f x = .ok s) : Closed true s.toList := by
  cases x with
  | column c =>
      have hcolumn := (d.isWord_reference c).1.with_gaps
      simp only [argument] at h
      split at h
      · split at h
        · obtain rfl := Except.ok.inj h
          exact .plain rfl
        · cases h
      · obtain rfl := Except.ok.inj h
        exact hcolumn
  | arithmetic left op right =>
      obtain rfl := Except.ok.inj h
      have hop : IsWord op.symbol := by
        cases op <;> exact isWord_of_plain (by decide) (by decide)
      exact (((d.isWord_reference left).isPhrase.append hop.isPhrase).append
        (d.isWord_reference right).isPhrase).closed
  | raw sql => exact absurd rfl (hraw sql)

/-- An aggregate is one word. -/
theorem isWord_aggregate {a : Aggregate} {s : String} (hraw : a.isRawFree = true)
    (h : d.aggregate a = .ok s) : IsWord s := by
  unfold aggregate at h
  rw [Failure.bind_eq_ok_iff] at h
  obtain ⟨arg, harg, hs⟩ := h
  obtain rfl := Except.ok.inj hs
  have hnotRaw : ∀ sql, a.argument ≠ .raw sql := by
    intro sql hsql
    simp [Aggregate.isRawFree, hsql] at hraw
  have hclosed := d.closed_argument hnotRaw harg
  have hname : a.function.sqlName.toList.all isPlain = true := by
    cases a.function <;> decide
  have hdistinct : ∀ b : Bool, Closed true (if b then "DISTINCT " else "").toList := by
    have hword : Closed true "DISTINCT ".toList := .of_plain_or_gap (by decide)
    intro b
    cases b with
    | false => exact .nil
    | true => exact hword
  apply isWord_of_group _ hname
    ((hdistinct (a.distinct && arg != "*")).append hclosed)
  simp

/-- The number of the month of a date is one word. -/
theorem isWord_monthOf {c : Reference} {s : String} (h : d.monthOf c = .ok s) : IsWord s := by
  have hcolumn := (d.isWord_reference c).1.with_gaps
  have hextract : IsWord ("EXTRACT(MONTH FROM " ++ d.reference c ++ ")") := by
    have hmonth : Closed true "MONTH FROM ".toList := .of_plain_or_gap (by decide)
    have htext : ("EXTRACT(MONTH FROM " ++ d.reference c ++ ")").toList =
        "EXTRACT".toList ++ '(' :: (("MONTH FROM ".toList ++ (d.reference c).toList) ++ [')']) := by
      simp
    exact isWord_of_group htext (by decide) (hmonth.append hcolumn)
  cases d with
  | sqlite =>
      obtain rfl := Except.ok.inj h
      have hname : Closed true "strftime".toList := .of_plain (by decide)
      have hquoted : Closed true ('\'' :: (['%', 'm'] ++ ['\''])) := .quoted rfl (by decide)
      have hcomma : Closed true ", ".toList := .of_plain_or_gap (by decide)
      have hinteger : Closed true " AS INTEGER".toList := .of_plain_or_gap (by decide)
      refine @isWord_of_group _ "CAST".toList _ ?_ (by decide)
        ((hname.append (.group ((hquoted.append hcomma).append hcolumn))).append hinteger)
      simp
  | postgres => exact Except.ok.inj h ▸ hextract
  | mySql => exact Except.ok.inj h ▸ hextract
  | ansi => cases h

/-- A number of days between marks is closed, with a sign or without. -/
theorem closed_days {gaps : Bool} {sign : List Char} (hsign : '\'' ∉ sign) (n : Nat) :
    Closed gaps ('\'' :: ((sign ++ (toString n).toList ++ " days".toList) ++ ['\''])) := by
  have hnumber : '\'' ∉ (toString n).toList := by
    rw [toList_toString]
    intro hmem
    exact absurd (isDigit_of_mem_digits hmem) (by decide)
  have hdays : '\'' ∉ " days".toList := by decide
  apply Closed.quoted rfl
  simp only [List.mem_append, not_or]
  exact ⟨⟨hsign, hnumber⟩, hdays⟩

/-- A day before today is made of ordinary words. -/
theorem isPhrase_daysAgo {n : Nat} {s : String} (h : d.daysAgo n = .ok s) : IsPhrase s := by
  cases d with
  | sqlite =>
      obtain rfl := Except.ok.inj h
      have hnow : Closed true ('\'' :: ("now".toList ++ ['\''])) := .quoted rfl (by decide)
      have hcomma : Closed true ", ".toList := .of_plain_or_gap (by decide)
      have hdays := @closed_days true ['-'] (by decide) n
      refine IsWord.isPhrase (@isWord_of_group _ "DATE".toList _ ?_ (by decide)
        ((hnow.append hcomma).append hdays))
      show ("DATE('now', '-" ++ toString n ++ " days')").toList = _
      simp
  | postgres =>
      obtain rfl := Except.ok.inj h
      have htoday : IsPhrase "CURRENT_DATE" := isPhrase_of_plain (by decide) (by decide)
      have hminus : IsPhrase "-" := isPhrase_of_plain (by decide) (by decide)
      have hinterval : IsPhrase "INTERVAL" := isPhrase_of_plain (by decide) (by decide)
      have hdays : IsPhrase ("'" ++ toString n ++ " days'") := by
        have hquoted := @closed_days false [] (by simp) n
        have htext : ("'" ++ toString n ++ " days'").toList =
            '\'' :: (([] ++ (toString n).toList ++ " days".toList) ++ ['\'']) := by
          simp
        apply IsWord.isPhrase
        unfold IsWord
        rw [htext]
        exact ⟨hquoted, isOrdinary_of_mem (c := '\'') (by simp) rfl⟩
      have hall := ((htoday.append hminus).append hinterval).append hdays
      have htext : s!"CURRENT_DATE - INTERVAL '{n} days'" =
          "CURRENT_DATE" ++ " " ++ "-" ++ " " ++ "INTERVAL" ++ " " ++
            ("'" ++ toString n ++ " days'") := by
        show "CURRENT_DATE - INTERVAL '" ++ toString n ++ " days'" = _
        rw [← String.toList_inj]
        simp
      rw [htext]
      exact hall
  | mySql =>
      obtain rfl := Except.ok.inj h
      have hnumber := (isWord_nat n).1.with_gaps
      have hname : Closed true "CURDATE".toList := .of_plain (by decide)
      have hbrackets : Closed true ('(' :: ([] ++ [')'])) := .group .nil
      have hinterval : Closed true ", INTERVAL ".toList := .of_plain_or_gap (by decide)
      have hday : Closed true " DAY".toList := .of_plain_or_gap (by decide)
      refine IsWord.isPhrase (@isWord_of_group _ "DATE_SUB".toList _ ?_ (by decide)
        ((((hname.append hbrackets).append hinterval).append hnumber).append hday))
      show ("DATE_SUB(CURDATE(), INTERVAL " ++ toString n ++ " DAY)").toList = _
      simp
  | ansi => cases h

/-- The left side of a condition is one word. -/
theorem isWord_operand {o : Operand} {s : Statement} (hraw : o.isRawFree = true)
    (h : Statement.operand d o = .ok s) : IsWord (s.inline d) := by
  cases o with
  | column c =>
      obtain rfl := Except.ok.inj h
      simpa using d.isWord_reference c
  | aggregate a =>
      rw [Statement.operand, Failure.map_eq_ok_iff] at h
      obtain ⟨t, ht, rfl⟩ := h
      simpa using d.isWord_aggregate hraw ht
  | monthOf c =>
      rw [Statement.operand, Failure.map_eq_ok_iff] at h
      obtain ⟨t, ht, rfl⟩ := h
      simpa using d.isWord_monthOf ht
  | literal v =>
      obtain rfl := Except.ok.inj h
      simpa using d.isWord_literal v

end Dialect

/-! ### Both sides of a condition -/

/-- A text made of the words of a condition. -/
def IsConditionText (s : String) : Prop :=
  ∃ ws, Spells isSpace s.toList ws ∧ IsCondition ws

/-- What may stand behind the left side of a condition: ordinary words or a range. -/
def IsRightSide (s : String) : Prop :=
  ∃ cs ws, s.toList = ' ' :: cs ∧ Spells isSpace cs ws ∧
    ((∀ w ∈ ws, IsOrdinary w) ∨
      ∃ low high, ws = [ranger, low, conjoiner, high] ∧ IsOrdinary low ∧ IsOrdinary high)

theorem IsWord.condition {left right : String} (hleft : IsWord left) (hright : IsRightSide right) :
    IsConditionText (left ++ right) := by
  obtain ⟨cs, ws, hcs, hws, hordinary⟩ := hright
  refine ⟨left.toList :: ws, ?_, left.toList, ws, rfl, hleft.2, hordinary⟩
  rw [String.toList_append, hcs]
  exact .more hleft.1 rfl hws

theorem IsPhrase.rightSide {s t : String} (hs : IsPhrase s) (h : t = " " ++ s) : IsRightSide t := by
  obtain ⟨ws, hws, hordinary⟩ := hs
  refine ⟨s.toList, ws, ?_, hws, Or.inl hordinary⟩
  rw [h, String.toList_append]
  rfl

theorem isRightSide_range {low high : String} (hlow : IsWord low) (hhigh : IsWord high) :
    IsRightSide (" BETWEEN " ++ low ++ " AND " ++ high) := by
  have htext : (" BETWEEN " ++ low ++ " AND " ++ high).toList =
      ' ' :: ("BETWEEN".toList ++ ' ' :: (low.toList ++ ' ' :: ("AND".toList ++ ' ' ::
        high.toList))) := by
    simp
  exact ⟨_, [ranger, low.toList, conjoiner, high.toList], htext,
    .plain (by decide) (.more hlow.1 rfl (.plain (by decide) (.one hhigh.1))),
    Or.inr ⟨_, _, rfl, hlow.2, hhigh.2⟩⟩

theorem isRightSide_operator {op : Comparison} (hop : op ≠ .between) {v t : String}
    (hv : IsPhrase v) (h : t = " " ++ op.sql ++ " " ++ v) : IsRightSide t := by
  apply ((isPhrase_comparison hop).append hv).rightSide
  rw [h]
  simp only [String.append_assoc]

/-- Closed texts with commas between them are closed. -/
theorem closed_list {ss : List String} (h : ∀ s ∈ ss, Closed true s.toList) :
    Closed true (", ".intercalate ss).toList := by
  have hcomma : Closed true ", ".toList := .of_plain_or_gap (by decide)
  induction ss with
  | nil => exact .nil
  | cons s ss ih =>
      rw [List.forall_mem_cons] at h
      cases ss with
      | nil => simpa using h.1
      | cons t ts =>
          rw [String.intercalate_cons_cons, String.toList_append, String.toList_append]
          exact (h.1.append hcomma).append (ih h.2)

theorem isRightSide_brackets {op : Comparison} (hop : op ≠ .between) {inner t : String}
    (hinner : Closed true inner.toList) (h : t = " " ++ op.sql ++ " (" ++ inner ++ ")") :
    IsRightSide t := by
  have hgroup : IsWord ("(" ++ inner ++ ")") := by
    apply @Dialect.isWord_of_group _ [] inner.toList _ (by simp) hinner
    simp
  apply isRightSide_operator hop hgroup.isPhrase
  rw [h, ← String.toList_inj]
  simp

/-- What a right side is written as, form by form. -/
inductive Compared (d : Dialect) (op : Comparison) : Comparand → Statement → Prop where
  /-- A test for NULL has no right side of its own. -/
  | test {rhs : Comparand} (hop : op = .isNull ∨ op = .isNotNull) :
      Compared d op rhs [.text (" " ++ op.sql)]
  | null {test : Comparison} (htest : test = .isNull ∨ test = .isNotNull) :
      Compared d op .null [.text (" " ++ test.sql)]
  | range {low high : Literal} :
      Compared d op (.range low high) [.text " BETWEEN ", .value low, .text " AND ", .value high]
  | single {v : Literal} (hop : op ≠ .between) :
      Compared d op (.literal v) (.text (" " ++ op.sql ++ " (") :: [.value v] ++ [.text ")"])
  | list {vs : List Literal} (hop : op ≠ .between) :
      Compared d op (.list vs)
        (.text (" " ++ op.sql ++ " (") :: Statement.join ", " (vs.map fun v => [.value v]) ++
          [.text ")"])
  | literal {v : Literal} (hop : op ≠ .between) :
      Compared d op (.literal v) [.text (" " ++ op.sql ++ " "), .value v]
  | column {c : Reference} (hop : op ≠ .between) :
      Compared d op (.column c) [.text (" " ++ op.sql ++ " " ++ d.reference c)]
  | daysAgo {n : Nat} {t : String} (hop : op ≠ .between) (h : d.daysAgo n = .ok t) :
      Compared d op (.daysAgo n) [.text (" " ++ op.sql ++ " "), .text t]
  | subquery {q : Query} {t : Statement} (hop : op ≠ .between)
      (h : Statement.select d " " q = .ok t) :
      Compared d op (.subquery q) (.text (" " ++ op.sql ++ " (") :: t ++ [.text ")"])

/-- A right side is written in one of these forms. -/
theorem compared_of_comparison (d : Dialect) {op : Comparison} {rhs : Comparand} {s : Statement}
    (h : Statement.comparison d op rhs = .ok s) : Compared d op rhs s := by
  -- the kind of the right side settles the form, but for the comparisons that refuse it
  cases rhs with
  | literal v =>
      cases op
      case isNull | isNotNull => exact Except.ok.inj h ▸ .test (by decide)
      case between => cases h
      case isIn | notIn => exact Except.ok.inj h ▸ .single (by decide)
      all_goals exact Except.ok.inj h ▸ .literal (by decide)
  | list vs =>
      cases op
      case isNull | isNotNull => exact Except.ok.inj h ▸ .test (by decide)
      case isIn | notIn =>
        cases vs with
        | nil => cases h
        | cons v vs => exact Except.ok.inj h ▸ .list (by decide)
      all_goals cases h
  | range low high =>
      cases op
      case isNull | isNotNull => exact Except.ok.inj h ▸ .test (by decide)
      case between => exact Except.ok.inj h ▸ .range
      all_goals cases h
  | null =>
      cases op
      case isNull | isNotNull => exact Except.ok.inj h ▸ .test (by decide)
      case eq => exact Except.ok.inj h ▸ .null (Or.inl rfl)
      case notEq => exact Except.ok.inj h ▸ .null (Or.inr rfl)
      all_goals cases h
  | daysAgo n =>
      cases hday : d.daysAgo n with
      | error e =>
          cases op
          case isNull | isNotNull => exact Except.ok.inj h ▸ .test (by decide)
          all_goals simp [Statement.comparison, hday, Except.map, bind, Except.bind] at h
      | ok t =>
          cases op
          case isNull | isNotNull => exact Except.ok.inj h ▸ .test (by decide)
          case between | isIn | notIn => cases h
          all_goals
            simp only [Statement.comparison, hday, Except.map] at h
            exact Except.ok.inj h ▸ .daysAgo (by decide) hday
  | column c =>
      cases op
      case isNull | isNotNull => exact Except.ok.inj h ▸ .test (by decide)
      case between | isIn | notIn => cases h
      all_goals exact Except.ok.inj h ▸ .column (by decide)
  | subquery q =>
      cases op
      case isNull | isNotNull => exact Except.ok.inj h ▸ .test (by decide)
      case between => cases h
      all_goals
        obtain ⟨-, hrest⟩ := (Failure.check_eq_ok_iff _ _ _).1 h
        obtain ⟨t, ht, hs⟩ := (Failure.bind_eq_ok_iff _ _ _).1 hrest
        exact Except.ok.inj hs ▸ .subquery (by decide) ht

/-- What stands behind the left side of a condition, if the text of a query inside of it is
closed. -/
theorem Compared.rightSide {d : Dialect} {op : Comparison} {rhs : Comparand} {s : Statement}
    (h : Compared d op rhs s)
    (hsub : ∀ q, rhs = .subquery q → ∀ t, Statement.select d " " q = .ok t →
      Closed true (t.inline d).toList) : IsRightSide (s.inline d) := by
  have htest : ∀ test : Comparison, test = .isNull ∨ test = .isNotNull →
      IsRightSide (Statement.inline d [.text (" " ++ test.sql)]) := by
    intro test ht
    have hop : test ≠ .between := by
      obtain rfl | rfl := ht <;> decide
    exact (isPhrase_comparison hop).rightSide (by simp)
  cases h with
  | test hop => exact htest op hop
  | null ht => exact htest _ ht
  | @range low high =>
      have hrange := isRightSide_range (d.isWord_literal low) (d.isWord_literal high)
      simpa [String.append_assoc] using hrange
  | @single v hop =>
      apply isRightSide_brackets hop (d.isWord_literal v).1.with_gaps
      simp [String.append_assoc]
  | @list vs hop =>
      have hvalues : ∀ t ∈ vs.map (Literal.sql d), Closed true t.toList := by
        rw [List.forall_mem_map]
        exact fun v _ => (d.isWord_literal v).1.with_gaps
      have hjoin := Statement.inline_join d ", " (vs.map fun v => [.value v])
      rw [List.map_map] at hjoin
      apply isRightSide_brackets hop (closed_list hvalues)
      rw [List.cons_append, Statement.inline_text, Statement.inline_append, hjoin]
      simp [Function.comp_def, String.append_assoc]
  | @literal v hop =>
      apply isRightSide_operator hop (d.isWord_literal v).isPhrase
      simp
  | @column c hop =>
      apply isRightSide_operator hop (d.isWord_reference c).isPhrase
      simp
  | daysAgo hop hday =>
      apply isRightSide_operator hop (d.isPhrase_daysAgo hday)
      simp
  | @subquery q t hop hselect =>
      apply isRightSide_brackets hop (hsub q rfl t hselect)
      rw [List.cons_append, Statement.inline_text, Statement.inline_append]
      simp [String.append_assoc]

/-- A condition is made of the words of one, if the text of a query inside of it is closed. -/
theorem isConditionText_of_closed (d : Dialect) {c : Condition} (hraw : c.lhs.isRawFree = true)
    (hsub : ∀ q, c.rhs = .subquery q → ∀ t, Statement.select d " " q = .ok t →
      Closed true (t.inline d).toList)
    {s : Statement} (h : Statement.condition d c = .ok s) : IsConditionText (s.inline d) := by
  obtain ⟨lhs, op, rhs⟩ := c
  have hboth : (Statement.operand d lhs >>= fun left =>
      Statement.comparison d op rhs >>= fun right => pure (left ++ right)) = .ok s := by
    simp only [Statement.condition] at h
    split at h
    · cases h
    · exact h
  obtain ⟨left, hleft, hrest⟩ := (Failure.bind_eq_ok_iff _ _ _).1 hboth
  obtain ⟨right, hright, hs⟩ := (Failure.bind_eq_ok_iff _ _ _).1 hrest
  obtain rfl := Except.ok.inj hs
  rw [Statement.inline_append]
  exact (d.isWord_operand hraw hleft).condition
    ((compared_of_comparison d hright).rightSide hsub)

end AskSql
