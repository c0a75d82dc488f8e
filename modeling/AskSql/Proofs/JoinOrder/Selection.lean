import AskSql.Proofs.JoinOrder.Reordering
import AskSql.Proofs.Render.Parameters
import AskSql.Proofs.Render.Quoting

/-!
# What a reordered query selects

Joining the tables in another order leaves the list of selected items as it is.  A list that names
no item, however, stands for all columns of the source, and another order may well start from
another table.  So the statement of the reordered query opens with the select clause of the given
one if items are named or the source stays where it is, and else it selects the columns of another
table (`Query.selectClause_reordered?`).
-/

namespace AskSql
namespace Query

/-- The clause by which the statement for a query says what it selects. -/
def selectClause (d : Dialect) (q : Query) : Except Failure String := do
  let selected ← d.items q.source q.items
  return (if q.distinct then "SELECT DISTINCT " else "SELECT ") ++ ", ".intercalate selected

/-- A statement starts with a select clause, behind which it names the source. -/
def OpensWith (q : Query) (d : Dialect) (pretty : Bool) (clause sql : String) : Prop :=
  ∃ rest, sql = clause ++ (if pretty then "\n" else " ") ++ "FROM " ++ d.quoteName q.source ++ rest

/-- Some item is always selected. -/
theorem ne_nil_of_items {d : Dialect} {source : String} {is : List Item} {ss : List String}
    (h : d.items source is = .ok ss) : ss ≠ [] := by
  cases is with
  | nil =>
      obtain rfl := Except.ok.inj h
      exact List.cons_ne_nil _ _
  | cons i is =>
      obtain ⟨s, -, h⟩ := (Failure.bind_eq_ok_iff _ _ _).1 ((List.mapM_cons).symm.trans h)
      obtain ⟨rest, -, h⟩ := (Failure.bind_eq_ok_iff _ _ _).1 h
      obtain rfl := Except.ok.inj h
      exact List.cons_ne_nil _ _

/-- A statement is the select clause, the source, and what follows. -/
theorem exists_eq_join_of_select {q : Query} {d : Dialect} {between : String} {s : Statement}
    (h : Statement.select d between q = .ok s) :
    ∃ clause more, q.selectClause d = .ok clause ∧
      s = Statement.join between
        (Statement.texts [clause, "FROM " ++ d.quoteName q.source] ++ more) := by
  -- each clause is written or fails on its own, and the first one cannot be empty
  obtain ⟨source, is, js, filters, groupBy, having, orderBy, limit, distinct⟩ := q
  obtain ⟨selected, hselected, h⟩ := (Failure.bind_eq_ok_iff _ _ _).1 h
  obtain ⟨joined, -, h⟩ := (Failure.bind_eq_ok_iff _ _ _).1 h
  obtain ⟨filtered, -, h⟩ := (Failure.bind_eq_ok_iff _ _ _).1 h
  obtain ⟨grouped, -, h⟩ := (Failure.bind_eq_ok_iff _ _ _).1 h
  obtain ⟨ordered, -, h⟩ := (Failure.bind_eq_ok_iff _ _ _).1 h
  obtain ⟨item, items, rfl⟩ := List.exists_cons_of_ne_nil (ne_nil_of_items hselected)
  refine ⟨(if distinct then "SELECT DISTINCT " else "SELECT ") ++ ", ".intercalate (item :: items),
    joined ++ Statement.conditionClause "WHERE " filtered ++
      Statement.texts (Dialect.clause "GROUP BY " ", " (groupBy.map d.reference)) ++
      Statement.conditionClause "HAVING " grouped ++
      Statement.texts (Dialect.clause "ORDER BY " ", " ordered) ++
      Statement.texts (limit.toList.map d.limit), ?_, (Except.ok.inj h).symm⟩
  rw [selectClause, hselected]
  rfl

theorem opensWith_intercalate (q : Query) (d : Dialect) (pretty : Bool) (clause : String)
    (rest : List String) :
    q.OpensWith d pretty clause ((if pretty then "\n" else " ").intercalate
      (clause :: ("FROM " ++ d.quoteName q.source) :: rest)) := by
  refine ⟨(if pretty then "\n" else " ").intercalate ("" :: rest), ?_⟩
  rw [String.intercalate_cons_cons]
  cases rest with
  | nil => simp [String.append_assoc]
  | cons t ts => simp [String.append_assoc]

/-- Every statement opens with the select clause of its query. -/
theorem opensWith_of_renderAs {q : Query} {d : Dialect} {pretty parameterized : Bool}
    {r : Rendered} (h : q.renderAs d pretty parameterized = .ok r) :
    ∃ clause, q.selectClause d = .ok clause ∧ q.OpensWith d pretty clause r.sql := by
  rw [renderAs_eq] at h
  obtain ⟨_, -, h⟩ := (Failure.bind_eq_ok_iff _ _ _).1 h
  obtain ⟨s, hs, rfl⟩ := (Failure.map_eq_ok_iff _ _ _).1 h
  obtain ⟨clause, more, hclause, rfl⟩ := exists_eq_join_of_select hs
  have hread := Statement.readAll_append d parameterized 1
    (Statement.texts [clause, "FROM " ++ d.quoteName q.source]) more
  rw [Statement.readAll_texts] at hread
  refine ⟨clause, hclause, ?_⟩
  rw [Statement.read_join, hread]
  exact opensWith_intercalate q d pretty clause _

/-- Two queries that select alike have the same select clause, unless they select all columns of
different sources. -/
theorem selectClause_eq_iff {q c : Query} (d : Dialect) (hitems : c.items = q.items)
    (hdistinct : c.distinct = q.distinct) :
    c.selectClause d = q.selectClause d ↔ (q.items = [] → c.source = q.source) := by
  rw [selectClause, selectClause, hitems, hdistinct]
  cases q.items with
  | nil =>
      constructor
      · intro h _
        -- the clauses differ in nothing but the quoted source
        have htext := Except.ok.inj h
        simp only [String.intercalate_singleton, ← String.append_assoc, String.append_left_inj,
          String.append_right_inj] at htext
        exact d.quoteName_unique (congrArg String.toList htext)
      · intro h
        rw [h rfl]
  | cons i is => exact ⟨fun _ h => (List.cons_ne_nil i is h).elim, fun _ => rfl⟩

/-- The reordered query has the same select clause as the given one, in every dialect, unless no
item is named and the order starts with another table than the source.  These are the clauses by
which their statements open, whether values are spelled out or become parameters. -/
theorem selectClause_reordered? {q : Query} {order : List Nat} (hvalid : q.validate = .ok ())
    (horder : order ∈ q.orders) :
    ∃ c, q.reordered? order = some c ∧ ∀ d : Dialect,
      (c.selectClause d = q.selectClause d ↔ (q.items = [] → order.head? = some 0)) ∧
        ∀ p ∈ [q, c], ∀ pretty parameterized r, p.renderAs d pretty parameterized = .ok r →
          ∃ clause, p.selectClause d = .ok clause ∧ p.OpensWith d pretty clause r.sql := by
  have hq := (validate_eq_ok_iff q).1 hvalid
  obtain ⟨c, hc, h⟩ := exists_reordering hq horder
  obtain ⟨first, rest, -, rfl, hfirst, -, -⟩ := exists_walk_of_mem_orders horder
  have hsource : c.source = q.tableAt first := h.source_eq first rfl
  refine ⟨c, hc, fun d => ⟨?_, fun p _ _ _ _ hrender => opensWith_of_renderAs hrender⟩⟩
  rw [selectClause_eq_iff d h.items_eq h.distinct_eq]
  refine imp_congr_right fun _ => ?_
  rw [hsource, List.head?_cons, Option.some_inj]
  constructor
  · intro hsame
    -- no two tables of a valid query have the same name
    have hkey : q.keyAt first = q.keyAt 0 := by
      rw [keyAt_zero, keyAt, hsame]
    exact hq.keyAt_inj hfirst (by omega) hkey
  · rintro rfl
    rfl

/-- The customers may come first, as the item is named. -/
theorem selectClause_reordered?_romanOrders :
    romanOrders.validate = .ok () ∧ [1, 0] ∈ romanOrders.orders ∧
      ∃ c, romanOrders.reordered? [1, 0] = some c ∧ ∀ d : Dialect,
        (c.selectClause d = romanOrders.selectClause d ↔
            (romanOrders.items = [] → [1, 0].head? = some 0)) ∧
          ∀ p ∈ [romanOrders, c], ∀ pretty parameterized r,
            p.renderAs d pretty parameterized = .ok r →
              ∃ clause, p.selectClause d = .ok clause ∧ p.OpensWith d pretty clause r.sql :=
  have horder : [1, 0] ∈ romanOrders.orders := by decide
  ⟨validate_romanOrders, horder, selectClause_reordered? validate_romanOrders horder⟩

/-- All columns of the orders of customers. -/
def ordersOfCustomers : Query where
  source := "orders"
  joins := [{ left := ⟨"orders", "customer_id", none⟩, right := ⟨"customers", "id", none⟩ }]

/-- With the customers first, the columns of the customers are selected. -/
theorem selectClause_reordered?_ordersOfCustomers_ne :
    ordersOfCustomers.validate = .ok () ∧ ordersOfCustomers.isReorderable = true ∧
      [1, 0] ∈ ordersOfCustomers.orders ∧
        ∃ c, ordersOfCustomers.reordered? [1, 0] = some c ∧
          ordersOfCustomers.render .postgres false = .ok
            ("SELECT \"orders\".* FROM \"orders\" INNER JOIN \"customers\" " ++
              "ON \"orders\".\"customer_id\" = \"customers\".\"id\"") ∧
          c.render .postgres false = .ok
            ("SELECT \"customers\".* FROM \"customers\" INNER JOIN \"orders\" " ++
              "ON \"customers\".\"id\" = \"orders\".\"customer_id\"") ∧
          c.selectClause .postgres ≠ ordersOfCustomers.selectClause .postgres :=
  ⟨rfl, rfl, by decide, _, rfl, rfl, rfl, by decide⟩

end Query
end AskSql
