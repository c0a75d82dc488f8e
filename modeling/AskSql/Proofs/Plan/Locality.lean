import AskSql.JoinOrder.Search
import AskSql.Proofs.JoinOrder.Walk
import AskSql.Proofs.Schema.Outline

/-!
# What a plan takes from the schema

Two schemas that say the same about the tables of a query lead to the same plan, at the same cost
(`CostModel.plan_congr`).
-/

namespace AskSql

variable {s s' : Schema} {o : OptimizerSettings}

theorem Condition.indexColumn?_congr {table : String} (h : s.SameTable s' table) (c : Condition) :
    c.indexColumn? s table = c.indexColumn? s' table := by
  unfold indexColumn?
  split
  · rw [Schema.hasIndex_congr h.outline]
  · rfl

theorem takeIndexed_congr {table : String} (h : s.SameTable s' table) (cs : List Condition) :
    takeIndexed s table cs = takeIndexed s' table cs := by
  induction cs with
  | nil => rfl
  | cons c cs ih => rw [takeIndexed, takeIndexed, c.indexColumn?_congr h, ih]

namespace CostModel

theorem tableRows_congr {table : String} (h : s.SameTable s' table) :
    tableRows ⟨s, o⟩ table = tableRows ⟨s', o⟩ table := by
  rw [tableRows, tableRows, h.rows]

theorem tableWidth_congr {table : String} (h : s.SameTable s' table) :
    tableWidth ⟨s, o⟩ table = tableWidth ⟨s', o⟩ table := by
  rw [tableWidth, tableWidth,
    Schema.map_table?_congr (fun _ _ houtline => Table.rowWidth_congr houtline) h.outline]

theorem accessPath_congr {table : String} (h : s.SameTable s' table) (cs : List Condition) :
    accessPath ⟨s, o⟩ table cs = accessPath ⟨s', o⟩ table cs := by
  simp only [accessPath, tableRows_congr h, tableWidth_congr h, takeIndexed_congr h]
  split
  · rfl
  · rfl

theorem joined_congr (algorithm : JoinAlgorithm) (q : Query) (left : Plan) {j : Join}
    (h : s.SameTable s' j.table) :
    joined ⟨s, o⟩ algorithm q left j = joined ⟨s', o⟩ algorithm q left j := by
  simp only [joined, accessPath_congr h]
  rfl

/-- The plan of a query depends on its own tables alone. -/
theorem plan_congr {q : Query} (h : ∀ t ∈ q.tables, s.SameTable s' t) (algorithm : JoinAlgorithm) :
    plan ⟨s, o⟩ algorithm q = plan ⟨s', o⟩ algorithm q := by
  have hsource : s.SameTable s' q.source := h _ List.mem_cons_self
  have hjoins : ∀ (left : Plan), ∀ j ∈ q.joins,
      joined ⟨s, o⟩ algorithm q left j = joined ⟨s', o⟩ algorithm q left j := fun left j hj =>
    joined_congr algorithm q left (h _ (List.mem_cons_of_mem _ (List.mem_map_of_mem hj)))
  simp only [plan, accessPath_congr hsource]
  rw [List.foldl_ext _ _ _ hjoins]
  rfl

theorem planCost_congr {q : Query} (h : ∀ t ∈ q.tables, s.SameTable s' t) :
    planCost ⟨s, o⟩ q = planCost ⟨s', o⟩ q := by
  rw [planCost, plan_congr h, planCost]

end CostModel

end AskSql
