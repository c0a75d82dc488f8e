import AskSql.Proofs.Render.Quoting
import AskSql.Proofs.Render.Written

/-!
# What the keys of an order refer to

A key of the order that is an aggregate is written as a label where there is one: its own, or that
of the first selected aggregate that computes the same.  The second one stands in the select list.
The first one need not: nothing compares the label of a key with those that are selected.  So a key
resolves (`Dialect.Resolves`) exactly if it has no label of its own, or one under which the query
selects an aggregate that computes the same (`Query.HasText.resolves_iff`).
-/

namespace AskSql

/-- A key of the order with its direction. -/
def SortKey.directed (k : SortKey) (sql : String) : String :=
  match k.direction with
  | some .asc => sql ++ " ASC"
  | some .desc => sql ++ " DESC"
  | none => sql

theorem Aggregate.sameExpression_iff {a b : Aggregate} :
    a.sameExpression b = true ↔
      a.function = b.function ∧ a.distinct = b.distinct ∧ a.argument = b.argument := by
  simp only [sameExpression, Bool.and_eq_true, beq_iff_eq, and_assoc]

/-- The label of an aggregate, where it has one, is one under which an aggregate is selected that
computes the same. -/
def Aggregate.LabelIsSelected (selected : List Aggregate) (a : Aggregate) : Prop :=
  ∀ label, a.label = some label → ∃ b ∈ selected, b.label = some label ∧ b.sameExpression a = true

theorem Item.eq_of_aggregate? {i : Item} {a : Aggregate} (h : i.aggregate? = some a) :
    i = .aggregate a := by
  cases i with
  | column c => cases h
  | aggregate b =>
      obtain rfl := Option.some.inj h
      rfl

namespace Dialect

variable {d : Dialect} {selected : List Aggregate} {a b : Aggregate} {k : SortKey} {text : String}

/-- The text stands for an aggregate where some aggregates are selected: it spells the aggregate
out, or is a label under which one that computes the same is selected. -/
inductive Resolves (d : Dialect) (selected : List Aggregate) (a : Aggregate) : String → Prop where
  | expression {text : String} (h : d.aggregate a = .ok text) : Resolves d selected a text
  | label {b : Aggregate} {label : String} (hb : b ∈ selected) (hlabel : b.label = some label)
      (hsame : b.sameExpression a = true) : Resolves d selected a (d.quoteName label)

/-- Aggregates that compute the same are spelled out alike. -/
theorem aggregate_congr (d : Dialect) (h : a.sameExpression b = true) :
    d.aggregate a = d.aggregate b := by
  obtain ⟨hfunction, hdistinct, hargument⟩ := Aggregate.sameExpression_iff.1 h
  rw [aggregate, aggregate, hfunction, hdistinct, hargument]

/-- No label looks like an aggregate, which starts with the letters of a function. -/
theorem quoteName_ne_aggregate (h : d.aggregate a = .ok text) (label : String) :
    d.quoteName label ≠ text := by
  obtain ⟨arg, -, h⟩ := (Failure.bind_eq_ok_iff _ _ _).1 h
  obtain rfl := Except.ok.inj h
  -- an aggregate begins with a letter, and a name with a mark or a star
  have hletter : ∃ c cs, a.function.sqlName.toList = c :: cs ∧ c.isAlpha = true := by
    cases a.function <;> exact ⟨_, _, rfl, rfl⟩
  have hmark : d.nameMark.isAlpha = false := by
    cases d <;> rfl
  obtain ⟨c, cs, hname, hc⟩ := hletter
  intro heq
  have hchars := congrArg String.toList heq
  simp only [String.toList_append, hname, List.cons_append] at hchars
  rw [toList_quoteName] at hchars
  by_cases hstar : label = "*"
  · rw [if_pos hstar] at hchars
    obtain rfl := (List.cons.inj hchars).1
    exact absurd hc (by decide)
  · rw [if_neg hstar] at hchars
    rw [← (List.cons.inj hchars).1, hmark] at hc
    cases hc

/-- A label resolves exactly if an aggregate that computes the same is selected under it. -/
theorem resolves_quoteName_iff {label : String} :
    d.Resolves selected a (d.quoteName label) ↔
      ∃ b ∈ selected, b.label = some label ∧ b.sameExpression a = true := by
  constructor
  · intro h
    generalize htext : d.quoteName label = text at h
    cases h with
    | expression h => exact absurd htext (quoteName_ne_aggregate h label)
    | label hb hlabel hsame =>
        obtain rfl := d.quoteName_unique (congrArg String.toList htext)
        exact ⟨_, hb, hlabel, hsame⟩
  · rintro ⟨b, hb, hlabel, hsame⟩
    exact .label hb hlabel hsame

/-- A key without a label of its own resolves. -/
theorem resolves_of_label_eq_none (hlabel : a.label = none)
    (h : d.orderItem selected (.aggregate a) = .ok text) : d.Resolves selected a text := by
  have hfirst : orderLabel? selected a =
      (selected.find? fun b => b.sameExpression a).bind Aggregate.label := by
    rw [orderLabel?, hlabel]
    rfl
  rw [orderItem, hfirst] at h
  -- the first aggregate that computes the same counts, whether it has a label or not
  cases hfound : selected.find? fun b => b.sameExpression a with
  | none =>
      rw [hfound] at h
      exact .expression h
  | some b =>
      rw [hfound, Option.bind_some] at h
      cases hother : b.label with
      | none =>
          rw [hother] at h
          exact .expression h
      | some label =>
          rw [hother] at h
          obtain rfl := Except.ok.inj h
          have hsame : b.sameExpression a = true :=
            List.find?_some (p := fun b : Aggregate => b.sameExpression a) hfound
          exact .label (List.mem_of_find?_eq_some hfound) hother hsame

/-- A key of the order resolves exactly if its own label, where it has one, is selected. -/
theorem resolves_orderItem_iff (h : d.orderItem selected (.aggregate a) = .ok text) :
    d.Resolves selected a text ↔ a.LabelIsSelected selected := by
  cases hlabel : a.label with
  | none =>
      have hselected : a.LabelIsSelected selected := by
        intro label hsome
        rw [hlabel] at hsome
        cases hsome
      exact iff_of_true (resolves_of_label_eq_none hlabel h) hselected
  | some label =>
      rw [orderItem, orderLabel?, hlabel] at h
      obtain rfl := Except.ok.inj h
      rw [resolves_quoteName_iff, Aggregate.LabelIsSelected, hlabel]
      simp

/-- A selected aggregate with a label is spelled out with the label behind it. -/
theorem exists_labelled_of_items {source label : String} {is : List Item} {texts : List String}
    (hb : .aggregate b ∈ is) (hlabel : b.label = some label)
    (h : d.items source is = .ok texts) :
    ∃ expression, d.aggregate b = .ok expression ∧
      expression ++ " AS " ++ d.quoteName label ∈ texts := by
  cases is with
  | nil => cases hb
  | cons i is =>
      obtain ⟨text, hmem, hitem⟩ := Failure.exists_mem_of_mapM h hb
      obtain ⟨expression, hexpression, hitem⟩ := (Failure.bind_eq_ok_iff _ _ _).1 hitem
      rw [hlabel] at hitem
      obtain rfl := Except.ok.inj hitem
      exact ⟨expression, hexpression, hmem⟩

/-- What a key resolves to is the aggregate spelled out, or a label that stands behind it in the
select list. -/
theorem Resolves.expression_or_labelled {source : String} {is : List Item} {texts : List String}
    (h : d.Resolves (is.filterMap Item.aggregate?) a text)
    (hitems : d.items source is = .ok texts) :
    ∃ expression, d.aggregate a = .ok expression ∧
      (text = expression ∨ expression ++ " AS " ++ text ∈ texts) := by
  cases h with
  | expression h => exact ⟨text, h, .inl rfl⟩
  | @label b label hb hlabel hsame =>
      obtain ⟨i, hi, haggregate⟩ := List.mem_filterMap.1 hb
      obtain rfl := Item.eq_of_aggregate? haggregate
      obtain ⟨expression, hexpression, hmem⟩ := exists_labelled_of_items hi hlabel hitems
      exact ⟨expression, (d.aggregate_congr hsame).symm.trans hexpression, .inr hmem⟩

/-- The text of a key with its direction. -/
theorem orderKey_eq_ok_iff :
    d.orderKey selected k = .ok text ↔
      ∃ bare, d.orderItem selected k.item = .ok bare ∧ text = k.directed bare := by
  rw [orderKey, Failure.bind_eq_ok_iff]
  refine exists_congr fun bare => and_congr_right fun _ => ?_
  exact ⟨fun h => (Except.ok.inj h).symm, fun h => congrArg Except.ok h.symm⟩

end Dialect

namespace Query

variable {q : Query} {d : Dialect} {parameterized : Bool} {between sql : String}

/-- Wherever a query is written, a key of its order that is an aggregate resolves exactly if the
label of the key, where it has one, is one under which the query selects an aggregate that computes
the same.  What it resolves to is the aggregate spelled out, or a label that stands behind it in the
select list. -/
theorem HasText.resolves_iff (h : q.HasText d parameterized between sql) :
    ∃ selected front keys back,
      d.items q.source q.items = .ok selected ∧
      sql = between.intercalate
        (Dialect.clause (if q.distinct then "SELECT DISTINCT " else "SELECT ") ", " selected ++
          front ++ Dialect.clause "ORDER BY " ", " keys ++ back) ∧
      List.Forall₂ (fun k key => ∃ text, key = k.directed text ∧ ∀ a, k.item = .aggregate a →
        (d.Resolves q.aggregates a text ↔ a.LabelIsSelected q.aggregates) ∧
        (d.Resolves q.aggregates a text → ∃ expression, d.aggregate a = .ok expression ∧
          (text = expression ∨ expression ++ " AS " ++ text ∈ selected))) q.orderBy keys := by
  obtain ⟨selected, joined, filtered, grouped, keys, hselected, -, hkeys, htext⟩ :=
    h.exists_clauses
  refine ⟨selected, ["FROM " ++ d.quoteName q.source] ++ joined ++
      Dialect.clause "WHERE " " AND " filtered ++
      Dialect.clause "GROUP BY " ", " (q.groupBy.map d.reference) ++
      Dialect.clause "HAVING " " AND " grouped, keys, q.limit.toList.map d.limit, hselected, ?_, ?_⟩
  · rw [htext]
    simp only [List.append_assoc]
  · refine (Failure.mapM_eq_ok_iff.1 hkeys).imp fun k key hkey => ?_
    obtain ⟨text, hitem, rfl⟩ := Dialect.orderKey_eq_ok_iff.1 hkey
    refine ⟨text, rfl, fun a ha => ?_⟩
    rw [ha] at hitem
    exact ⟨Dialect.resolves_orderItem_iff hitem, fun h => h.expression_or_labelled hselected⟩

/-- The sum of the amounts, under a label if it has one. -/
def sumOfAmounts (label : Option String) : Aggregate where
  function := .sum
  argument := .column ⟨"orders", "amount", none⟩
  label := label

/-- The regions with their sales, in the order of these. -/
def regionsBySales (label : Option String) : Query where
  source := "orders"
  items := [.column ⟨"orders", "region", none⟩, .aggregate (sumOfAmounts (some "sales"))]
  groupBy := [⟨"orders", "region", none⟩]
  orderBy := [⟨.aggregate (sumOfAmounts label), some .desc⟩]

/-- The statement for the regions, up to the label in the order. -/
def regionsStatement : String :=
  "SELECT \"orders\".\"region\" AS \"orders.region\", " ++
    "SUM(\"orders\".\"amount\") AS \"sales\" FROM \"orders\" " ++
    "GROUP BY \"orders\".\"region\" ORDER BY "

/-- Without a label of its own the key takes that of the selected sum. -/
theorem HasText.resolves_iff_regionsBySales :
    (regionsBySales none).renderAs .postgres false false =
        .ok ⟨regionsStatement ++ "\"sales\" DESC", []⟩ ∧
      ∃ keys, List.Forall₂ (fun k key => ∃ text, key = k.directed text ∧
        ∀ a, k.item = .aggregate a →
          Dialect.Resolves .postgres (regionsBySales none).aggregates a text)
        (regionsBySales none).orderBy keys := by
  have hrendered : (regionsBySales none).renderAs .postgres false false =
      .ok ⟨regionsStatement ++ "\"sales\" DESC", []⟩ := rfl
  obtain ⟨-, htext⟩ := hasText_of_renderAs hrendered
  obtain ⟨selected, front, keys, back, -, -, hkeys⟩ := htext.resolves_iff
  refine ⟨hrendered, keys, ?_⟩
  cases hkeys with
  | cons hkey hrest =>
      cases hrest
      obtain ⟨text, rfl, hresolves⟩ := hkey
      refine .cons ⟨text, rfl, fun a ha => (hresolves a ha).1.2 fun label hlabel => ?_⟩ .nil
      obtain rfl := Item.aggregate.inj ha
      cases hlabel

/-- With a label that nothing is selected under, the key is written all the same. -/
theorem HasText.unresolved_regionsBySales :
    (regionsBySales (some "total")).render .postgres false =
        .ok (regionsStatement ++ "\"total\" DESC") ∧
      ¬Dialect.Resolves .postgres (regionsBySales (some "total")).aggregates
        (sumOfAmounts (some "total")) "\"total\"" := by
  have hselected : (regionsBySales (some "total")).aggregates = [sumOfAmounts (some "sales")] := rfl
  have hquoted : "\"total\"" = Dialect.postgres.quoteName "total" := by decide
  refine ⟨by rfl, fun hresolves => ?_⟩
  rw [hselected, hquoted, Dialect.resolves_quoteName_iff] at hresolves
  obtain ⟨b, hb, hlabel, -⟩ := hresolves
  obtain rfl := List.mem_singleton.1 hb
  exact absurd hlabel (by decide)

end Query
end AskSql
