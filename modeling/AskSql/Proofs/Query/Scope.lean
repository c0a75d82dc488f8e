import AskSql.Proofs.Text.Folding
import AskSql.Query.Scope

/-!
# The reference invariant

`Query.validate` walks through a query and stops at the first reference that fails.  This file says
what a query looks like that passes: `WellScoped` lists the facts, each stated for the whole query,
and `validate_eq_ok_iff` ties the two together.  The joins of such a query form a tree: every join
starts from a table that was there before it and brings in one that was not.

A condition behind a join may still mention a table that a later join brings in.  `OnScoped` is the
stronger demand that it does not.
-/

namespace AskSql

/-- A computation that continues another one succeeds exactly when both do. -/
theorem Failure.bind_eq_ok_iff {α β : Type} (x : Except Failure α) (f : α → Except Failure β)
    (b : β) : (x >>= f) = .ok b ↔ ∃ a, x = .ok a ∧ f a = .ok b := by
  cases x with
  | error e => simp [bind, Except.bind]
  | ok a => simp [bind, Except.bind]

/-- A result that is changed afterwards comes from one that was there before. -/
theorem Failure.map_eq_ok_iff {α β : Type} (x : Except Failure α) (f : α → β) (b : β) :
    x.map f = .ok b ↔ ∃ a, x = .ok a ∧ f a = b := by
  cases x with
  | error e => simp [Except.map]
  | ok a => simp [Except.map]

/-- A check that is followed by something else has to pass. -/
theorem Failure.check_eq_ok_iff {β : Type} (x : Except Failure Unit) (y : Except Failure β)
    (b : β) : (x >>= fun _ => y) = .ok b ↔ x = .ok () ∧ y = .ok b := by
  rw [bind_eq_ok_iff]
  constructor
  · rintro ⟨_, hx, hy⟩
    exact ⟨hx, hy⟩
  · rintro ⟨hx, hy⟩
    exact ⟨(), hx, hy⟩

theorem Condition.mem_tables {c : Condition} {t : String} :
    t ∈ c.tables ↔ ∃ r ∈ c.references, r.tableKey = t := by
  simp [tables]

namespace Query

/-- The tables that are there after the first `n` joins, in small letters. -/
def scopeAfter (q : Query) (n : Nat) : List String :=
  Text.lower q.source :: (q.joins.take n).map fun j => j.right.tableKey

/-- All tables of the query, in small letters. -/
def tableKeys (q : Query) : List String :=
  q.tables.map Text.lower

/-- A query that passes the check, fact by fact. -/
structure WellScoped (q : Query) : Prop where
  source_named : Text.isBlankText q.source = false
  left_known : ∀ i j, q.joins[i]? = some j → j.left.tableKey ∈ q.scopeAfter i
  right_new : ∀ i j, q.joins[i]? = some j → j.right.tableKey ∉ q.scopeAfter i
  references_known : ∀ x ∈ q.references, x.2.tableKey ∈ q.tableKeys
  subqueries_valid : ∀ c ∈ q.conditions, ∀ sub, c.rhs = .subquery sub → sub.validate = .ok ()

/-- The conditions behind each join mention only tables that are there once this join is made. -/
def OnScoped (q : Query) : Prop :=
  ∀ i j, q.joins[i]? = some j → ∀ c ∈ j.conditions, ∀ r ∈ c.references,
    r.tableKey ∈ q.scopeAfter (i + 1)

@[simp] theorem scopeAfter_zero (q : Query) : q.scopeAfter 0 = [Text.lower q.source] := by
  simp [scopeAfter]

theorem scopeAfter_length (q : Query) : q.scopeAfter q.joins.length = q.tableKeys := by
  simp only [scopeAfter, tableKeys, tables, List.take_length, List.map_cons, List.map_map]
  rfl

theorem scopeAfter_succ (q : Query) {i : Nat} {j : Join} (h : q.joins[i]? = some j) :
    q.scopeAfter (i + 1) = q.scopeAfter i ++ [j.right.tableKey] := by
  simp [scopeAfter, List.take_add_one, h]

theorem right_mem_tableKeys {q : Query} {j : Join} (h : j ∈ q.joins) :
    j.right.tableKey ∈ q.tableKeys := by
  rw [← scopeAfter_length, scopeAfter, List.take_length]
  exact List.mem_cons_of_mem _ (List.mem_map_of_mem h)

/-- The joins can be made one after the other exactly when each starts from a table that is there
and brings in one that is not. -/
theorem joinScope_eq_ok_iff (scope scope' : List String) (js : List (Reference × Reference)) :
    joinScope scope js = .ok scope' ↔
      (∀ i j, js[i]? = some j →
        j.1.tableKey ∈ scope ++ (js.take i).map (fun j => j.2.tableKey) ∧
          j.2.tableKey ∉ scope ++ (js.take i).map (fun j => j.2.tableKey)) ∧
        scope' = scope ++ js.map fun j => j.2.tableKey := by
  induction js generalizing scope with
  | nil => simp [joinScope, eq_comm]
  | cons j js ih =>
      obtain ⟨left, right⟩ := j
      simp only [joinScope, Bool.not_eq_true', List.contains_eq_mem]
      -- the first join is checked against the scope, and the others against a longer one
      by_cases hleft : left.tableKey ∈ scope
      · by_cases hright : right.tableKey ∈ scope
        · -- the first join brings in a table that is there already
          simp only [hleft, hright, decide_true, Bool.true_eq_false, if_false, if_true,
            reduceCtorEq, false_iff, not_and]
          intro hall
          exact absurd hright (by simpa using (hall 0 _ rfl).2)
        · simp only [hleft, hright, decide_true, decide_false, Bool.true_eq_false,
            Bool.false_eq_true, if_false]
          rw [ih]
          constructor
          · rintro ⟨hall, rfl⟩
            refine ⟨?_, by simp⟩
            intro i j hj
            cases i with
            | zero =>
                obtain rfl : (left, right) = j := by simpa using hj
                simpa using ⟨hleft, hright⟩
            | succ i => simpa using hall i j (by simpa using hj)
          · rintro ⟨hall, rfl⟩
            refine ⟨?_, by simp⟩
            intro i j hj
            simpa using hall (i + 1) j (by simpa using hj)
      · simp only [hleft, decide_false, if_true, reduceCtorEq, false_iff, not_and]
        intro hall
        exact absurd (by simpa using (hall 0 _ rfl).1) hleft

/-- The tables of the joins of a query can be brought in one after the other. -/
theorem joinScope_joinSides_iff (q : Query) (scope : List String) :
    joinScope [Text.lower q.source] q.joinSides = .ok scope ↔
      (∀ i j, q.joins[i]? = some j →
        j.left.tableKey ∈ q.scopeAfter i ∧ j.right.tableKey ∉ q.scopeAfter i) ∧
        scope = q.tableKeys := by
  rw [joinScope_eq_ok_iff, ← scopeAfter_length]
  have hscope : ∀ i, [Text.lower q.source] ++
      (q.joinSides.take i).map (fun j => j.2.tableKey) = q.scopeAfter i := by
    intro i
    simp only [joinSides, scopeAfter, ← List.map_take, List.map_map, List.singleton_append]
    rfl
  have hall : [Text.lower q.source] ++ q.joinSides.map (fun j => j.2.tableKey) =
      q.scopeAfter q.joins.length := by
    rw [← hscope q.joins.length, List.take_of_length_le (by simp [joinSides])]
  rw [hall]
  simp only [hscope]
  simp only [joinSides, List.getElem?_map, Option.map_eq_some_iff]
  constructor
  · rintro ⟨h, rfl⟩
    exact ⟨fun i j hj => h i (j.left, j.right) ⟨j, hj, rfl⟩, rfl⟩
  · rintro ⟨h, rfl⟩
    refine ⟨?_, rfl⟩
    rintro i _ ⟨j, hj, rfl⟩
    exact h i j hj

theorem checkScope_eq_ok_iff (q : Query) :
    q.checkScope = .ok () ↔
      Text.isBlankText q.source = false ∧
        (∀ i j, q.joins[i]? = some j →
          j.left.tableKey ∈ q.scopeAfter i ∧ j.right.tableKey ∉ q.scopeAfter i) ∧
          ∀ x ∈ q.references, x.2.tableKey ∈ q.tableKeys := by
  unfold checkScope
  by_cases hblank : Text.isBlankText q.source = true
  · simp [hblank, throw, throwThe, MonadExceptOf.throw, bind, Except.bind]
  · have hnamed : Text.isBlankText q.source = false := by simpa using hblank
    simp only [hnamed, Bool.false_eq_true, if_false, true_and]
    change (joinScope [Text.lower q.source] q.joinSides >>= _) = _ ↔ _
    rw [Failure.bind_eq_ok_iff]
    simp only [joinScope_joinSides_iff]
    constructor
    · rintro ⟨scope, ⟨hjoins, rfl⟩, hrefs⟩
      refine ⟨hjoins, ?_⟩
      cases hstray : q.strayReference? q.tableKeys with
      | some x => rw [hstray] at hrefs; cases hrefs
      | none => simpa [strayReference?] using hstray
    · rintro ⟨hjoins, hrefs⟩
      refine ⟨q.tableKeys, ⟨hjoins, rfl⟩, ?_⟩
      have hstray : q.strayReference? q.tableKeys = none := by
        simpa [strayReference?] using hrefs
      rw [hstray]
      rfl

theorem validateAll_eq_ok_iff (cs : List Condition) :
    validateAll cs = .ok () ↔
      ∀ c ∈ cs, ∀ sub, c.rhs = .subquery sub → sub.validate = .ok () := by
  induction cs with
  | nil => simp [validateAll, pure, Except.pure]
  | cons c cs ih =>
      obtain ⟨lhs, op, rhs⟩ := c
      rw [validateAll, Failure.check_eq_ok_iff]
      simp only [List.forall_mem_cons, ← ih]
      cases rhs <;> simp [validateComparand, pure, Except.pure]

theorem validateJoins_eq_ok_iff (js : List Join) :
    validateJoins js = .ok () ↔ ∀ j ∈ js, validateAll j.conditions = .ok () := by
  induction js with
  | nil => simp [validateJoins, pure, Except.pure]
  | cons j js ih =>
      obtain ⟨kind, left, right, conditions⟩ := j
      rw [validateJoins, Failure.check_eq_ok_iff]
      simp [← ih]

/-- The check of a query, with its subqueries apart. -/
theorem validate_eq (q : Query) :
    q.validate =
      (q.checkScope >>= fun _ => validateAll q.filters >>= fun _ =>
        validateAll q.having >>= fun _ => validateJoins q.joins) := by
  cases q
  rw [validate]

/-- The check passes exactly the queries that are well scoped. -/
theorem validate_eq_ok_iff (q : Query) : q.validate = .ok () ↔ q.WellScoped := by
  have hsub : (∀ c ∈ q.conditions, ∀ sub, c.rhs = .subquery sub → sub.validate = .ok ()) ↔
      validateAll q.filters = .ok () ∧ validateAll q.having = .ok () ∧
        validateJoins q.joins = .ok () := by
    simp only [conditions, List.forall_mem_append, validateJoins_eq_ok_iff,
      validateAll_eq_ok_iff, List.forall_mem_flatMap, and_assoc]
  rw [validate_eq]
  simp only [Failure.check_eq_ok_iff, checkScope_eq_ok_iff]
  constructor
  · rintro ⟨⟨hnamed, hjoins, hrefs⟩, hfilters, hhaving, hbehind⟩
    exact ⟨hnamed, fun i j h => (hjoins i j h).1, fun i j h => (hjoins i j h).2, hrefs,
      hsub.2 ⟨hfilters, hhaving, hbehind⟩⟩
  · intro h
    obtain ⟨hfilters, hhaving, hbehind⟩ := hsub.1 h.subqueries_valid
    exact ⟨⟨h.source_named, fun i j hj => ⟨h.left_known i j hj, h.right_new i j hj⟩,
      h.references_known⟩, hfilters, hhaving, hbehind⟩

/-- How many orders of products on sale each customer in Rome made. -/
def romanOrders : Query where
  source := "orders"
  items := [.column ⟨"customers", "name", none⟩, .aggregate (Aggregate.countRows "orders")]
  joins := [
    { left := ⟨"orders", "customer_id", none⟩
      right := ⟨"customers", "id", none⟩
      conditions := [.compare ⟨"customers", "city", none⟩ .eq (.text "Rome")] }]
  filters := [
    ⟨.column ⟨"orders", "product_id", none⟩, .isIn, .subquery {
      source := "products"
      items := [.column ⟨"products", "id", none⟩]
      filters := [.compare ⟨"products", "on_sale", none⟩ .eq (.boolean true)] }⟩]

theorem validate_romanOrders : romanOrders.validate = .ok () := rfl

theorem onScoped_romanOrders : romanOrders.OnScoped := by
  intro i j hj c hc r hr
  match i with
  | 0 =>
      obtain rfl := Option.some.inj hj
      obtain rfl := List.mem_singleton.1 hc
      obtain rfl := List.mem_singleton.1 hr
      decide
  | i + 1 => cases hj

end Query

end AskSql
