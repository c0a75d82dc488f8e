import AskSql.Proofs.Query.Nested
import AskSql.Proofs.Render.Written

/-!
# What the joins are made on

A query is written with its joins in their order, each followed by what it is made on.  The check of
a query wants the two columns of a join to fit the tables that are there so far, but the conditions
behind it only to fit the query as a whole.  So the text of a join may mention a table that a later
one brings in, and that is all that may go wrong (`Query.onReferences_scoped_iff`).
-/

namespace AskSql

/-- The references that stand behind the table that a join brings in. -/
def Join.onReferences (j : Join) : List Reference :=
  j.left :: j.right :: j.conditions.flatMap Condition.references

/-- Some condition behind the join mentions the table. -/
def Join.Mentions (j : Join) (table : String) : Prop :=
  ∃ c ∈ j.conditions, table ∈ c.tables

theorem Join.mentions_iff {j : Join} {table : String} :
    j.Mentions table ↔ ∃ r ∈ j.conditions.flatMap Condition.references, r.tableKey = table := by
  simp only [Mentions, Condition.mem_tables, List.mem_flatMap]
  constructor
  · rintro ⟨c, hc, r, hr, htable⟩
    exact ⟨r, ⟨c, hc, hr⟩, htable⟩
  · rintro ⟨r, ⟨c, hc, hr⟩, htable⟩
    exact ⟨c, hc, r, hr, htable⟩

namespace Query

variable {q p : Query} {i : Nat} {j : Join}

/-- The tables of a query are those that are there so far and those that later joins bring in. -/
theorem mem_tableKeys_iff (q : Query) (n : Nat) {table : String} :
    table ∈ q.tableKeys ↔ table ∈ q.scopeAfter n ∨
      ∃ k ≥ n, ∃ later, q.joins[k]? = some later ∧ later.right.tableKey = table := by
  have hparts : q.tableKeys =
      q.scopeAfter n ++ (q.joins.drop n).map fun j => j.right.tableKey := by
    rw [← scopeAfter_length, scopeAfter, scopeAfter, List.take_length, List.cons_append,
      ← List.map_append, List.take_append_drop]
  rw [hparts, List.mem_append]
  refine or_congr_right ?_
  rw [List.mem_map]
  constructor
  · rintro ⟨later, hlater, htable⟩
    obtain ⟨k, hk⟩ := List.mem_iff_getElem?.1 hlater
    rw [List.getElem?_drop] at hk
    exact ⟨n + k, Nat.le_add_right n k, later, hk, htable⟩
  · rintro ⟨k, hk, later, hlater, htable⟩
    refine ⟨later, List.mem_iff_getElem?.2 ⟨k - n, ?_⟩, htable⟩
    rwa [List.getElem?_drop, Nat.add_sub_cancel' hk]

theorem scopeAfter_subset (q : Query) {m n : Nat} (h : m ≤ n) :
    q.scopeAfter m ⊆ q.scopeAfter n := by
  have htake : q.joins.take m ⊆ q.joins.take n := (List.take_subset_take_left q.joins h)
  exact List.cons_subset_cons _ (List.map_subset _ htake)

/-- What a later join of a valid query brings in is not there yet. -/
theorem WellScoped.right_not_mem_scopeAfter (h : q.WellScoped) {k n : Nat} (hk : n ≤ k)
    (hj : q.joins[k]? = some j) : j.right.tableKey ∉ q.scopeAfter n :=
  fun hmem => h.right_new k j hj (q.scopeAfter_subset hk hmem)

/-- What stands behind a join is among the references of the query. -/
theorem mem_references_of_mem_onReferences (hj : j ∈ q.joins) {r : Reference}
    (hr : r ∈ j.onReferences) : (Clause.join, r) ∈ q.references := by
  have hjoin : (Clause.join, r) ∈ (q.joins.flatMap Join.onReferences).map fun r => (Clause.join, r) :=
    List.mem_map_of_mem (List.mem_flatMap.2 ⟨j, hj, hr⟩)
  simp only [references, List.mem_append]
  exact .inl (.inl (.inl (.inl (.inr hjoin))))

/-- In a valid query, at the top or inside of another one, each join starts from a table that is
there, brings in one that is not, and mentions tables of the query alone.  All that stands behind it
is there once the join is made, exactly if no condition mentions a table of a later join.  And this
is what is written: wherever the query is, its text has the joins in this order behind the source,
each with what stands behind it. -/
theorem onReferences_scoped_iff (hvalid : q.validate = .ok ()) (hp : q.Encloses p) :
    (∀ i j, p.joins[i]? = some j →
      j.left.tableKey ∈ p.scopeAfter i ∧ j.right.tableKey ∉ p.scopeAfter i ∧
      (∀ r ∈ j.onReferences, r.tableKey ∈ p.tableKeys) ∧
      ((∀ r ∈ j.onReferences, r.tableKey ∈ p.scopeAfter (i + 1)) ↔
        ∀ k > i, ∀ later, p.joins[k]? = some later → ¬j.Mentions later.right.tableKey)) ∧
    ∀ d parameterized between sql, p.HasText d parameterized between sql →
      ∃ front joined rest, List.Forall₂ (Join.IsWritten d parameterized) p.joins joined ∧
        sql = between.intercalate
          (front ++ ["FROM " ++ d.quoteName p.source] ++ joined ++ rest) := by
  have hscoped : p.WellScoped := (validate_eq_ok_iff p).1 (hp.validate hvalid)
  refine ⟨fun i j hj => ?_, ?_⟩
  · have hleft := hscoped.left_known i j hj
    have hknown : ∀ r ∈ j.onReferences, r.tableKey ∈ p.tableKeys := fun r hr =>
      hscoped.references_known (.join, r)
        (mem_references_of_mem_onReferences (List.mem_of_getElem? hj) hr)
    refine ⟨hleft, hscoped.right_new i j hj, hknown, ?_⟩
    constructor
    · intro hall k hk later hlater hmentions
      obtain ⟨r, hr, htable⟩ := Join.mentions_iff.1 hmentions
      have hthere := hall r (List.mem_cons_of_mem _ (List.mem_cons_of_mem _ hr))
      rw [htable] at hthere
      exact hscoped.right_not_mem_scopeAfter hk hlater hthere
    · intro hlate r hr
      obtain rfl | rfl | hr : r = j.left ∨ r = j.right ∨
          r ∈ j.conditions.flatMap Condition.references := by
        simpa [Join.onReferences] using hr
      · exact p.scopeAfter_subset (Nat.le_succ i) hleft
      · rw [p.scopeAfter_succ hj]
        exact List.mem_append_right _ (List.mem_singleton_self _)
      -- a table of the query that is not there yet comes with a later join
      · obtain hthere | ⟨k, hk, later, hlater, htable⟩ := (p.mem_tableKeys_iff (i + 1)).1
          (hknown r (List.mem_cons_of_mem _ (List.mem_cons_of_mem _ hr)))
        · exact hthere
        · exact absurd (Join.mentions_iff.2 ⟨r, hr, htable.symm⟩) (hlate k hk later hlater)
  · intro d parameterized between sql htext
    obtain ⟨selected, joined, filtered, grouped, ordered, -, hjoined, -, rfl⟩ :=
      htext.exists_clauses
    refine ⟨Dialect.clause (if p.distinct then "SELECT DISTINCT " else "SELECT ") ", " selected,
      joined, Dialect.clause "WHERE " " AND " filtered ++
        Dialect.clause "GROUP BY " ", " (p.groupBy.map d.reference) ++
        Dialect.clause "HAVING " " AND " grouped ++ Dialect.clause "ORDER BY " ", " ordered ++
        p.limit.toList.map d.limit, hjoined, ?_⟩
    simp only [List.append_assoc]

/-- Orders with their customers and items, where the customers are joined on the number of the
items. -/
def itemsTooEarly : Query where
  source := "orders"
  items := [.column ⟨"orders", "id", none⟩]
  joins := [
    { left := ⟨"orders", "customer_id", none⟩
      right := ⟨"customers", "id", none⟩
      conditions := [.compare ⟨"items", "quantity", none⟩ .gt (.integer 1)] },
    { left := ⟨"orders", "id", none⟩, right := ⟨"items", "order_id", none⟩ }]

/-- The condition behind the customers mentions no other table, so it is in scope there. -/
theorem onReferences_scoped_romanOrders :
    romanOrders.validate = .ok () ∧ romanOrders.Encloses romanOrders ∧
      ∀ i j, romanOrders.joins[i]? = some j →
        ∀ r ∈ j.onReferences, r.tableKey ∈ romanOrders.scopeAfter (i + 1) := by
  refine ⟨validate_romanOrders, .refl _, fun i j hj => ?_⟩
  obtain ⟨hjoins, -⟩ := onReferences_scoped_iff validate_romanOrders (.refl _)
  refine (hjoins i j hj).2.2.2.2 fun k hk later hlater => ?_
  -- there is no second join
  have hlength : romanOrders.joins.length = 1 := rfl
  obtain ⟨hbound, -⟩ := List.getElem?_eq_some_iff.1 hlater
  omega

/-- The query passes the check, and the items stand in its text before they are joined. -/
theorem onReferences_itemsTooEarly :
    itemsTooEarly.validate = .ok () ∧
      (∃ j, itemsTooEarly.joins[0]? = some j ∧ ⟨"items", "quantity", none⟩ ∈ j.onReferences ∧
        "items" ∉ itemsTooEarly.scopeAfter 1) ∧
      itemsTooEarly.render .postgres false = .ok
        ("SELECT \"orders\".\"id\" AS \"orders.id\" FROM \"orders\" " ++
          "INNER JOIN \"customers\" ON \"orders\".\"customer_id\" = \"customers\".\"id\" " ++
            "AND \"items\".\"quantity\" > 1 " ++
          "INNER JOIN \"items\" ON \"orders\".\"id\" = \"items\".\"order_id\"") :=
  ⟨rfl, ⟨_, rfl, by decide, by decide⟩, rfl⟩

end Query
end AskSql
