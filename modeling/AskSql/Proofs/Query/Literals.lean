import AskSql.Proofs.Query.Scope

/-!
# Queries with other literals

`Query.mapLiterals f` puts `f v` in the place of each literal `v` of a query, in its subqueries as
well.  The references stay where they are, so the check of the scope, which reads nothing else,
comes to the same (`Query.validate_mapLiterals`).
-/

namespace AskSql

section Literals

variable (f : Literal → Literal)

/-- The left side with another literal. -/
def Operand.mapLiterals : Operand → Operand
  | column c => column c
  | aggregate a => aggregate a
  | monthOf c => monthOf c
  | literal v => literal (f v)

mutual

/-- The right side with other literals. -/
def Comparand.mapLiterals : Comparand → Comparand
  | .literal v => .literal (f v)
  | .list vs => .list (vs.map f)
  | .range low high => .range (f low) (f high)
  | .null => .null
  | .daysAgo n => .daysAgo n
  | .column c => .column c
  | .subquery q => .subquery (Query.mapLiterals q)

/-- Conditions with other literals. -/
def Condition.mapAllLiterals : List Condition → List Condition
  | [] => []
  | ⟨lhs, op, rhs⟩ :: cs =>
    ⟨lhs.mapLiterals f, op, Comparand.mapLiterals rhs⟩ :: Condition.mapAllLiterals cs

/-- Joins with other literals. -/
def Join.mapAllLiterals : List Join → List Join
  | [] => []
  | ⟨kind, left, right, conditions⟩ :: js =>
    ⟨kind, left, right, Condition.mapAllLiterals conditions⟩ :: Join.mapAllLiterals js

/-- The query with other literals. -/
def Query.mapLiterals : Query → Query
  | ⟨source, items, joins, filters, groupBy, having, orderBy, limit, distinct⟩ =>
    ⟨source, items, Join.mapAllLiterals joins, Condition.mapAllLiterals filters, groupBy,
      Condition.mapAllLiterals having, orderBy, limit, distinct⟩

end

@[simp] theorem Query.source_mapLiterals (q : Query) : (q.mapLiterals f).source = q.source := by
  obtain ⟨source, items, joins, filters, groupBy, having, orderBy, limit, distinct⟩ := q
  rfl

@[simp] theorem Query.items_mapLiterals (q : Query) : (q.mapLiterals f).items = q.items := by
  obtain ⟨source, items, joins, filters, groupBy, having, orderBy, limit, distinct⟩ := q
  rfl

/-! ### The scope -/

@[simp] theorem Operand.references_mapLiterals (a : Operand) :
    (a.mapLiterals f).references = a.references := by
  cases a <;> rfl

theorem Condition.references_mapLiterals (lhs : Operand) (op : Comparison) (rhs : Comparand) :
    (Condition.mk (lhs.mapLiterals f) op (rhs.mapLiterals f)).references =
      (Condition.mk lhs op rhs).references := by
  cases rhs <;> simp [references, Comparand.mapLiterals]

@[simp] theorem Condition.references_mapAllLiterals (cs : List Condition) :
    (mapAllLiterals f cs).flatMap references = cs.flatMap references := by
  induction cs with
  | nil => rfl
  | cons c cs ih =>
      obtain ⟨lhs, op, rhs⟩ := c
      rw [mapAllLiterals, List.flatMap_cons, List.flatMap_cons, ih, references_mapLiterals]

@[simp] theorem Join.references_mapAllLiterals (js : List Join) :
    (mapAllLiterals f js).flatMap
        (fun j => j.left :: j.right :: j.conditions.flatMap Condition.references) =
      js.flatMap fun j => j.left :: j.right :: j.conditions.flatMap Condition.references := by
  induction js with
  | nil => rfl
  | cons j js ih =>
      obtain ⟨kind, left, right, conditions⟩ := j
      rw [mapAllLiterals, List.flatMap_cons, List.flatMap_cons, ih,
        Condition.references_mapAllLiterals]

@[simp] theorem Join.sides_mapAllLiterals (js : List Join) :
    (mapAllLiterals f js).map (fun j => (j.left, j.right)) = js.map fun j => (j.left, j.right) := by
  induction js with
  | nil => rfl
  | cons j js ih =>
      obtain ⟨kind, left, right, conditions⟩ := j
      rw [mapAllLiterals, List.map_cons, List.map_cons, ih]

theorem Condition.mapAllLiterals_append (cs ds : List Condition) :
    mapAllLiterals f (cs ++ ds) = mapAllLiterals f cs ++ mapAllLiterals f ds := by
  induction cs with
  | nil => rfl
  | cons c cs ih =>
      obtain ⟨lhs, op, rhs⟩ := c
      rw [List.cons_append, mapAllLiterals, ih, mapAllLiterals, List.cons_append]

theorem Join.conditions_mapAllLiterals (js : List Join) :
    (mapAllLiterals f js).flatMap Join.conditions =
      Condition.mapAllLiterals f (js.flatMap Join.conditions) := by
  induction js with
  | nil => rfl
  | cons j js ih =>
      obtain ⟨kind, left, right, conditions⟩ := j
      rw [mapAllLiterals, List.flatMap_cons, List.flatMap_cons, ih,
        Condition.mapAllLiterals_append]

namespace Query

theorem tables_mapLiterals (q : Query) : (q.mapLiterals f).tables = q.tables := by
  obtain ⟨source, items, joins, filters, groupBy, having, orderBy, limit, distinct⟩ := q
  have hsides := congrArg (List.map fun sides => sides.2.table) (Join.sides_mapAllLiterals f joins)
  rw [List.map_map, List.map_map] at hsides
  exact congrArg (source :: ·) hsides

theorem conditions_mapLiterals (q : Query) :
    (q.mapLiterals f).conditions = Condition.mapAllLiterals f q.conditions := by
  obtain ⟨source, items, joins, filters, groupBy, having, orderBy, limit, distinct⟩ := q
  rw [mapLiterals]
  simp only [conditions, Join.conditions_mapAllLiterals, Condition.mapAllLiterals_append]

theorem checkScope_mapLiterals (q : Query) : (q.mapLiterals f).checkScope = q.checkScope := by
  obtain ⟨source, items, joins, filters, groupBy, having, orderBy, limit, distinct⟩ := q
  simp [mapLiterals, checkScope, joinSides, strayReference?, references]

mutual

theorem validateComparand_mapLiterals : ∀ rhs : Comparand,
    validateComparand (rhs.mapLiterals f) = validateComparand rhs
  | .subquery q => validate_mapLiterals q
  | .literal _ | .list _ | .range _ _ | .null | .daysAgo _ | .column _ => rfl

theorem validateAll_mapAllLiterals : ∀ cs : List Condition,
    validateAll (Condition.mapAllLiterals f cs) = validateAll cs
  | [] => rfl
  | ⟨lhs, op, rhs⟩ :: cs => by
      rw [Condition.mapAllLiterals, validateAll, validateAll, validateComparand_mapLiterals rhs,
        validateAll_mapAllLiterals cs]

theorem validateJoins_mapAllLiterals : ∀ js : List Join,
    validateJoins (Join.mapAllLiterals f js) = validateJoins js
  | [] => rfl
  | ⟨kind, left, right, conditions⟩ :: js => by
      rw [Join.mapAllLiterals, validateJoins, validateJoins, validateAll_mapAllLiterals conditions,
        validateJoins_mapAllLiterals js]

/-- The check of the scope does not look at literals. -/
theorem validate_mapLiterals : ∀ q : Query, (q.mapLiterals f).validate = q.validate
  | ⟨source, items, joins, filters, groupBy, having, orderBy, limit, distinct⟩ => by
      have hscope := checkScope_mapLiterals f
        ⟨source, items, joins, filters, groupBy, having, orderBy, limit, distinct⟩
      rw [mapLiterals] at hscope ⊢
      rw [validate, validate, hscope, validateAll_mapAllLiterals filters,
        validateAll_mapAllLiterals having, validateJoins_mapAllLiterals joins]

end

end Query

end Literals

end AskSql
