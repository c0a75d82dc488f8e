import AskSql.Proofs.JoinOrder.Walk
import AskSql.Proofs.Plan.Cost

/-!
# What a plan accounts for

A plan reads each table of its query once, joins them in the order of the query, and tests each
condition once: in a filter, or by the index through which a table is read.  Every step of the
construction adds its own share to what the plan below it accounts for (`Plan.Accounts`).

The conditions of the filter are distributed over the tables and the filter above the joins.  In a
well scoped query each of them comes to one place (`Query.filters_perm_localFilters`): a condition on
one table alone names a table of the query, and no two tables of the query have the same name.
-/

namespace AskSql

namespace Plan

/-- The number of conditions that are tested in filters. -/
def tested : Plan → Nat
  | scan .. | indexScan .. => 0
  | filter predicates _ _ input => predicates + input.tested
  | join _ _ _ _ left right => left.tested + right.tested
  | aggregate _ _ _ input | sort _ _ input | limit _ _ input => input.tested

/-- The number of tables that are read by an index. -/
def indexScans : Plan → Nat
  | scan .. => 0
  | indexScan .. => 1
  | join _ _ _ _ left right => left.indexScans + right.indexScans
  | filter _ _ _ input | aggregate _ _ _ input | sort _ _ input | limit _ _ input =>
    input.indexScans

/-- The joins in the order in which they are made, each with the table that it brings in. -/
def joins : Plan → List (String × JoinKind × JoinAlgorithm)
  | scan .. | indexScan .. => []
  | join table kind algorithm _ left right =>
    left.joins ++ right.joins ++ [(table, kind, algorithm)]
  | filter _ _ _ input | aggregate _ _ _ input | sort _ _ input | limit _ _ input => input.joins

/-- The plan reads these tables, makes these joins and tests so many conditions. -/
structure Accounts (p : Plan) (tables : List String)
    (joins : List (String × JoinKind × JoinAlgorithm)) (conditions : Nat) : Prop where
  tables_eq : p.tables = tables
  joins_eq : p.joins = joins
  conditions_eq : p.tested + p.indexScans = conditions

theorem accounts_scan (table : String) (e : Estimate) : (scan table e).Accounts [table] [] 0 :=
  ⟨rfl, rfl, rfl⟩

theorem accounts_indexScan (table column : String) (e : Estimate) :
    (indexScan table column e).Accounts [table] [] 1 :=
  ⟨rfl, rfl, rfl⟩

theorem Accounts.aggregate {p : Plan} {ts : List String}
    {js : List (String × JoinKind × JoinAlgorithm)} {n : Nat} (h : p.Accounts ts js n)
    (groupColumns aggregates : Nat) (e : Estimate) :
    (aggregate groupColumns aggregates e p).Accounts ts js n :=
  ⟨h.tables_eq, h.joins_eq, h.conditions_eq⟩

end Plan

namespace CostModel

variable (m : CostModel) {p : Plan} {ts : List String}
  {js : List (String × JoinKind × JoinAlgorithm)} {n : Nat}

open Plan (Accounts)

theorem accounts_filtered (h : p.Accounts ts js n) (cs : List Condition) :
    (m.filtered cs p).Accounts ts js (n + cs.length) := by
  unfold filtered
  cases cs with
  | nil => exact h
  | cons c cs =>
      refine ⟨h.tables_eq, h.joins_eq, ?_⟩
      have hn := h.conditions_eq
      change (c :: cs).length + p.tested + p.indexScans = n + (c :: cs).length
      omega

/-- The condition that an index helps with is not tested once more. -/
theorem accounts_accessPath (table : String) (cs : List Condition) :
    (m.accessPath table cs).Accounts [table] [] cs.length := by
  unfold accessPath
  split
  · next column rest htake =>
      rw [length_of_takeIndexed htake, Nat.add_comm]
      exact m.accounts_filtered (Plan.accounts_indexScan table column _) rest
  · rw [← Nat.zero_add cs.length]
    exact m.accounts_filtered (Plan.accounts_scan table _) cs

theorem accounts_joined (h : p.Accounts ts js n) (algorithm : JoinAlgorithm) (q : Query)
    (j : Join) :
    (m.joined algorithm q p j).Accounts (ts ++ [j.table]) (js ++ [(j.table, j.kind, algorithm)])
      (n + ((q.localFilters j.table).length + j.conditions.length)) := by
  have hright := m.accounts_accessPath j.table (q.localFilters j.table ++ j.conditions)
  obtain ⟨htables, hjoins, hn⟩ := h
  constructor
  · change p.tables ++ (m.accessPath j.table _).tables = _
    rw [htables, hright.tables_eq]
  · change p.joins ++ (m.accessPath j.table _).joins ++ _ = _
    rw [hjoins, hright.joins_eq, List.append_nil]
  · have hconditions := hright.conditions_eq
    rw [List.length_append] at hconditions
    change p.tested + (m.accessPath j.table _).tested +
      (p.indexScans + (m.accessPath j.table _).indexScans) = _
    omega

theorem accounts_foldl_joined (h : p.Accounts ts js n) (algorithm : JoinAlgorithm) (q : Query)
    (joins : List Join) :
    (joins.foldl (m.joined algorithm q) p).Accounts (ts ++ joins.map Join.table)
      (js ++ joins.map fun j => (j.table, j.kind, algorithm))
      (n + ((joins.flatMap fun j => q.localFilters j.table).length +
        (joins.flatMap Join.conditions).length)) := by
  induction joins generalizing p ts js n with
  | nil => simpa using h
  | cons j joins ih =>
      have hrest := ih (m.accounts_joined h algorithm q j)
      simp only [List.append_assoc, List.singleton_append] at hrest
      refine ⟨hrest.tables_eq, hrest.joins_eq, hrest.conditions_eq.trans ?_⟩
      simp only [List.flatMap_cons, List.length_append]
      omega

theorem accounts_grouped (q : Query) (h : p.Accounts ts js n) :
    (m.grouped q p).Accounts ts js
      (n + if q.hasAggregates || !q.groupBy.isEmpty then q.having.length else 0) := by
  unfold grouped
  split
  · exact m.accounts_filtered (h.aggregate _ _ _) q.having
  · exact h

theorem accounts_sorted (q : Query) (h : p.Accounts ts js n) : (m.sorted q p).Accounts ts js n := by
  unfold sorted
  split
  · exact h
  · exact ⟨h.tables_eq, h.joins_eq, h.conditions_eq⟩

theorem accounts_limited (q : Query) (h : p.Accounts ts js n) :
    (limited q p).Accounts ts js n := by
  unfold limited
  split
  · exact ⟨h.tables_eq, h.joins_eq, h.conditions_eq⟩
  · exact h

/-- What the plan of any query accounts for, well scoped or not. -/
theorem accounts_plan (algorithm : JoinAlgorithm) (q : Query) :
    (m.plan algorithm q).Accounts q.tables
      (q.joins.map fun j => (j.table, j.kind, algorithm))
      ((q.tables.flatMap q.localFilters).length + q.residualFilters.length +
        (q.joins.flatMap Join.conditions).length +
        if q.hasAggregates || !q.groupBy.isEmpty then q.having.length else 0) := by
  have hbase := m.accounts_accessPath q.source (q.localFilters q.source)
  have hjoined := m.accounts_foldl_joined hbase algorithm q q.joins
  have hrows := m.accounts_filtered hjoined q.residualFilters
  have hplan := accounts_limited q (m.accounts_sorted q (m.accounts_grouped q hrows))
  refine ⟨hplan.tables_eq, hplan.joins_eq, hplan.conditions_eq.trans ?_⟩
  rw [Query.tables, List.flatMap_cons, List.flatMap_map, List.length_append]
  omega

end CostModel

namespace Query

/-- A condition on one table alone is on a table of the query. -/
theorem WellScoped.singleTable_mem {q : Query} (h : q.WellScoped) {c : Condition}
    (hc : c ∈ q.filters) {t : String} (ht : c.singleTable? = some t) : t ∈ q.tableKeys := by
  have htables : c.tables = [t] := by
    unfold Condition.singleTable? at ht
    split at ht
    · cases ht
    · split at ht
      · next t' heq => rw [heq, Option.some.inj ht]
      · cases ht
  obtain ⟨r, hr, rfl⟩ := Condition.mem_tables.1 (htables ▸ List.mem_singleton_self t)
  refine h.references_known (.filter, r) ?_
  simp only [references, List.mem_append, List.mem_map, List.mem_flatMap]
  exact .inl (.inl (.inl (.inr ⟨r, ⟨c, hc, hr⟩, rfl⟩)))

/-- Each condition of the filter is tested on one table, or above the joins. -/
theorem filters_perm_localFilters {q : Query} (h : q.WellScoped) :
    (q.residualFilters ++ q.tables.flatMap q.localFilters).Perm q.filters := by
  have hplaces := perm_filter_keys Condition.singleTable? h.tableKeys_nodup q.filters
    fun c hc t ht => h.singleTable_mem hc ht
  rwa [tableKeys, List.flatMap_map] at hplaces

/-- The plan of a query that passes the check, for any costs and either way of matching rows: its
leaves are the tables of the query, its joins are those of the query in their order, and what is
tested in its filters or used by an index is as much as there are conditions in the filter, behind
the joins and, where there are groups, on the groups. -/
theorem plan_accounts {q : Query} (hvalid : q.validate = .ok ()) (m : CostModel)
    (algorithm : JoinAlgorithm) :
    (m.plan algorithm q).tables = q.tables ∧
      (m.plan algorithm q).joins = (q.joins.map fun j => (j.table, j.kind, algorithm)) ∧
      (m.plan algorithm q).tested + (m.plan algorithm q).indexScans =
        q.filters.length + (q.joins.map fun j => j.conditions.length).sum +
          if q.hasAggregates || !q.groupBy.isEmpty then q.having.length else 0 := by
  have hq := (validate_eq_ok_iff q).1 hvalid
  obtain ⟨htables, hjoins, hconditions⟩ := m.accounts_plan algorithm q
  refine ⟨htables, hjoins, hconditions.trans ?_⟩
  have hfilters := (filters_perm_localFilters hq).length_eq
  rw [List.length_append] at hfilters
  rw [List.length_flatMap (f := Join.conditions)]
  omega

/-- Four conditions on four tables, one of them on two tables. -/
theorem plan_accounts_openRomanOrders :
    openRomanOrders.validate = .ok () ∧ ∀ (m : CostModel) (algorithm : JoinAlgorithm),
      (m.plan algorithm openRomanOrders).tables = ["orders", "deliveries", "customers", "notes"] ∧
        (m.plan algorithm openRomanOrders).joins = [("deliveries", .left, algorithm),
          ("customers", .inner, algorithm), ("notes", .left, algorithm)] ∧
        (m.plan algorithm openRomanOrders).tested +
          (m.plan algorithm openRomanOrders).indexScans = 4 :=
  ⟨rfl, fun m algorithm => plan_accounts rfl m algorithm⟩

end Query

end AskSql
