import AskSql.Proofs.Query.Literals
import AskSql.Proofs.Render.Parameters

/-!
# Queries that can be written

A dialect has words for a query when it has words for each of its items, each of its conditions and
each key of its order.  Where a condition stands plays no part, and the order is looked up in the
selected aggregates alone (`Query.Expressible`, `Query.exists_render_iff`).

Nor do the values play a part: with other literals in it a query has the same statement with other
values (`Statement.select_mapLiterals`), and one that cannot be written cannot be written with any
(`Query.expressible_mapLiterals`).
-/

namespace AskSql

/-! ### Piece by piece -/

/-- Two parts can be put together when there are both. -/
theorem exists_both_iff {α β γ : Type} {x : Except Failure α} {y : Except Failure β}
    {g : α → β → γ} :
    (∃ c, (do let a ← x; let b ← y; return g a b) = .ok c) ↔
      (∃ a, x = .ok a) ∧ ∃ b, y = .ok b := by
  cases x with
  | error e => simp [bind, Except.bind]
  | ok a =>
      cases y with
      | error e => simp [bind, Except.bind]
      | ok b => simp [bind, Except.bind, pure, Except.pure]

/-- There are outcomes for a list when there is one for each of it. -/
theorem exists_mapM_iff {α β : Type} {f : α → Except Failure β} {as : List α} :
    (∃ bs, as.mapM f = .ok bs) ↔ ∀ a ∈ as, ∃ b, f a = .ok b := by
  induction as with
  | nil => simp [pure, Except.pure]
  | cons a as ih =>
      rw [List.forall_mem_cons, ← ih, List.mapM_cons]
      exact exists_both_iff

variable {d : Dialect}

/-- The dialect has words for a condition. -/
def Condition.Expressible (d : Dialect) (c : Condition) : Prop :=
  ∃ s, Statement.condition d c = .ok s

/-- The dialect has words for everything in a query. -/
structure Query.Expressible (d : Dialect) (q : Query) : Prop where
  items : ∀ i ∈ q.items, ∃ sql, d.item i = .ok sql
  conditions : ∀ c ∈ q.conditions, c.Expressible d
  orderBy : ∀ k ∈ q.orderBy, ∃ sql, d.orderKey q.aggregates k = .ok sql

namespace Statement

theorem exists_items_iff {source : String} {is : List Item} :
    (∃ ss, d.items source is = .ok ss) ↔ ∀ i ∈ is, ∃ sql, d.item i = .ok sql := by
  cases is with
  | nil => simp [Dialect.items]
  | cons i is => exact exists_mapM_iff

theorem exists_conditions_iff {cs : List Condition} :
    (∃ ss, conditions d cs = .ok ss) ↔ ∀ c ∈ cs, c.Expressible d := by
  induction cs with
  | nil => simp [conditions]
  | cons c cs ih =>
      rw [List.forall_mem_cons, ← ih, conditions]
      exact exists_both_iff

theorem exists_joins_iff {js : List Join} :
    (∃ ss, joins d js = .ok ss) ↔ ∀ c ∈ js.flatMap Join.conditions, c.Expressible d := by
  induction js with
  | nil => simp [joins]
  | cons j js ih =>
      obtain ⟨kind, left, right, cs⟩ := j
      rw [List.flatMap_cons, List.forall_mem_append, ← ih, ← exists_conditions_iff, joins]
      exact exists_both_iff

/-- There is a statement for a query that is well scoped when there are words for all of it. -/
theorem exists_select_iff (between : String) {q : Query} :
    (∃ s, select d between q = .ok s) ↔ q.Expressible d := by
  obtain ⟨source, is, js, filters, groupBy, having, orderBy, limit, distinct⟩ := q
  constructor
  · rintro ⟨s, h⟩
    simp only [select, Failure.bind_eq_ok_iff] at h
    obtain ⟨selected, hselected, joined, hjoined, filtered, hfiltered, grouped, hgrouped, ordered,
      hordered, -⟩ := h
    refine ⟨exists_items_iff.1 ⟨selected, hselected⟩, ?_, exists_mapM_iff.1 ⟨ordered, hordered⟩⟩
    simp only [Query.conditions, List.forall_mem_append]
    exact ⟨⟨exists_conditions_iff.1 ⟨filtered, hfiltered⟩,
      exists_conditions_iff.1 ⟨grouped, hgrouped⟩⟩, exists_joins_iff.1 ⟨joined, hjoined⟩⟩
  · rintro ⟨hitems, hconditions, horder⟩
    simp only [Query.conditions, List.forall_mem_append] at hconditions
    obtain ⟨⟨hfilters, hhaving⟩, hjoins⟩ := hconditions
    obtain ⟨selected, hselected⟩ := exists_items_iff.2 hitems
    obtain ⟨joined, hjoined⟩ := exists_joins_iff.2 hjoins
    obtain ⟨filtered, hfiltered⟩ := exists_conditions_iff.2 hfilters
    obtain ⟨grouped, hgrouped⟩ := exists_conditions_iff.2 hhaving
    obtain ⟨ordered, hordered⟩ : ∃ ss, d.orderKeys is orderBy = .ok ss := exists_mapM_iff.2 horder
    rw [select, hselected, hjoined, hfiltered, hgrouped, hordered]
    exact ⟨_, rfl⟩

end Statement

/-- A query can be written when it passes the check and the dialect has words for it. -/
theorem Query.exists_render_iff {q : Query} {pretty : Bool} :
    (∃ sql, q.render d pretty = .ok sql) ↔ q.validate = .ok () ∧ q.Expressible d := by
  rw [← Statement.exists_select_iff (if pretty then "\n" else " "), render, renderAs_eq]
  cases q.validate with
  | error e => simp [Except.bind, bind]
  | ok _ =>
      cases Statement.select d (if pretty then "\n" else " ") q with
      | error e => simp [Except.bind, bind, Except.map]
      | ok s => simp [Except.bind, bind, Except.map, pure, Except.pure]

namespace Condition

/-- A condition can be written when the dialect has the comparison and both sides can be written. -/
theorem expressible_iff {lhs : Operand} {op : Comparison} {rhs : Comparand} :
    Expressible d ⟨lhs, op, rhs⟩ ↔
      (op = .iLike → d.hasILike = true) ∧ (∃ left, Statement.operand d lhs = .ok left) ∧
        ∃ right, Statement.comparison d op rhs = .ok right := by
  rw [Expressible, Statement.condition]
  by_cases hlike : (op = .iLike && !d.hasILike) = true
  · simp only [hlike, if_true]
    simp only [Bool.and_eq_true, decide_eq_true_eq, Bool.not_eq_true'] at hlike
    simp [hlike, throw, throwThe, MonadExceptOf.throw, bind, Except.bind]
  · have hhas : op = .iLike → d.hasILike = true := by
      simpa using hlike
    rw [if_neg hlike, and_iff_right hhas]
    exact exists_both_iff

/-- A query that is looked into for a member can be written. -/
theorem Expressible.subquery {lhs : Operand} {sub : Query}
    (h : Expressible d ⟨lhs, .isIn, .subquery sub⟩) : sub.Expressible d := by
  obtain ⟨-, -, right, h⟩ := expressible_iff.1 h
  simp only [Statement.comparison, Failure.bind_eq_ok_iff] at h
  obtain ⟨_, -, inner, hinner, -⟩ := h
  exact (Statement.exists_select_iff " ").1 ⟨inner, hinner⟩

end Condition

/-! ### Other literals -/

section Literals

variable (f : Literal → Literal)

/-- The piece with another value. -/
def Piece.mapValue : Piece → Piece
  | text t => text t
  | value v => value (f v)

namespace Statement

/-- The statement with other values. -/
def mapValues (s : Statement) : Statement :=
  s.map (Piece.mapValue f)

theorem mapValues_append (s t : Statement) :
    mapValues f (s ++ t) = mapValues f s ++ mapValues f t :=
  List.map_append

theorem mapValues_surrounded (before after : String) (s : Statement) :
    mapValues f (.text before :: s ++ [.text after]) =
      .text before :: mapValues f s ++ [.text after] :=
  mapValues_append f (.text before :: s) [.text after]

theorem mapValues_join (between : String) (ss : List Statement) :
    mapValues f (join between ss) = join between (ss.map (mapValues f)) := by
  induction ss with
  | nil => rfl
  | cons s ss ih =>
      cases ss with
      | nil => rfl
      | cons t ts =>
          change mapValues f (s ++ .text between :: join between (t :: ts)) =
            mapValues f s ++ .text between :: join between ((t :: ts).map (mapValues f))
          rw [mapValues_append, ← ih]
          rfl

theorem map_mapValues_texts (ss : List String) : (texts ss).map (mapValues f) = texts ss := by
  simp [texts, mapValues, Piece.mapValue]

theorem map_mapValues_conditionClause (keyword : String) (ss : List Statement) :
    (conditionClause keyword ss).map (mapValues f) =
      conditionClause keyword (ss.map (mapValues f)) := by
  cases ss with
  | nil => rfl
  | cons s ss =>
      have hjoin := mapValues_join f " AND " (s :: ss)
      exact congrArg (fun t => [.text keyword :: t]) hjoin

variable (d)

theorem operand_mapLiterals (a : Operand) :
    operand d (a.mapLiterals f) = (operand d a).map (mapValues f) := by
  cases a with
  | column c => rfl
  | aggregate a =>
      change (d.aggregate a).map _ = ((d.aggregate a).map _).map _
      cases d.aggregate a <;> rfl
  | monthOf c =>
      change (d.monthOf c).map _ = ((d.monthOf c).map _).map _
      cases d.monthOf c <;> rfl
  | literal v => rfl

mutual

theorem condition_mapLiterals (lhs : Operand) (op : Comparison) (rhs : Comparand) :
    condition d ⟨lhs.mapLiterals f, op, rhs.mapLiterals f⟩ =
      (condition d ⟨lhs, op, rhs⟩).map (mapValues f) := by
  simp only [condition]
  rw [operand_mapLiterals, comparison_mapLiterals op rhs]
  split
  · rfl
  · cases operand d lhs with
    | error e => rfl
    | ok left =>
        cases comparison d op rhs with
        | error e => rfl
        | ok right => exact congrArg Except.ok (mapValues_append f left right).symm

theorem comparison_mapLiterals (op : Comparison) : ∀ rhs : Comparand,
    comparison d op (rhs.mapLiterals f) = (comparison d op rhs).map (mapValues f)
  | .literal v => by cases op <;> rfl
  | .list vs => by
      cases op
      case isIn | notIn =>
        cases vs with
        | nil => rfl
        | cons v vs =>
            have hjoin := mapValues_join f ", " ((v :: vs).map fun v => [.value v])
            rw [List.map_map] at hjoin
            refine congrArg Except.ok ?_
            rw [mapValues_surrounded, hjoin, List.map_map]
            rfl
      all_goals rfl
  | .range low high => by cases op <;> rfl
  | .null => by cases op <;> rfl
  | .daysAgo n => by
      simp only [Comparand.mapLiterals]
      cases op
      case isNull | isNotNull | between | isIn | notIn => rfl
      all_goals
        simp only [comparison]
        cases d.daysAgo n <;> rfl
  | .column c => by cases op <;> rfl
  | .subquery q => by
      have hinner := select_mapLiterals " " q
      have hscope := Query.validate_mapLiterals f q
      simp only [Comparand.mapLiterals]
      cases op
      case isNull | isNotNull | between => rfl
      all_goals
        simp only [comparison, hinner, hscope]
        cases q.validate with
        | error e => rfl
        | ok _ =>
            cases select d " " q with
            | error e => rfl
            | ok inner => exact congrArg Except.ok (mapValues_surrounded f _ ")" inner).symm

theorem conditions_mapAllLiterals : ∀ cs : List Condition,
    conditions d (Condition.mapAllLiterals f cs) = (conditions d cs).map (List.map (mapValues f))
  | [] => rfl
  | ⟨lhs, op, rhs⟩ :: cs => by
      rw [Condition.mapAllLiterals, conditions, conditions, condition_mapLiterals lhs op rhs,
        conditions_mapAllLiterals cs]
      cases condition d ⟨lhs, op, rhs⟩ with
      | error e => rfl
      | ok here =>
          cases conditions d cs with
          | error e => rfl
          | ok rest => rfl

theorem joins_mapAllLiterals : ∀ js : List Join,
    joins d (Join.mapAllLiterals f js) = (joins d js).map (List.map (mapValues f))
  | [] => rfl
  | ⟨kind, left, right, cs⟩ :: js => by
      rw [Join.mapAllLiterals, joins, joins, conditions_mapAllLiterals cs, joins_mapAllLiterals js]
      cases conditions d cs with
      | error e => rfl
      | ok extra =>
          cases joins d js with
          | error e => rfl
          | ok rest =>
              have hjoin := mapValues_join f " AND "
                ([.text (d.reference left ++ " = " ++ d.reference right)] :: extra)
              exact congrArg (fun t => Except.ok ((_ :: t) :: rest.map (mapValues f))) hjoin.symm

/-- The statement of a query with other literals is its statement with other values. -/
theorem select_mapLiterals (between : String) : ∀ q : Query,
    select d between (q.mapLiterals f) = (select d between q).map (mapValues f)
  | ⟨source, is, js, filters, groupBy, having, orderBy, limit, distinct⟩ => by
      rw [Query.mapLiterals, select, select, joins_mapAllLiterals js,
        conditions_mapAllLiterals filters, conditions_mapAllLiterals having]
      cases d.items source is with
      | error e => rfl
      | ok selected =>
      cases joins d js with
      | error e => rfl
      | ok joined =>
      cases conditions d filters with
      | error e => rfl
      | ok filtered =>
      cases conditions d having with
      | error e => rfl
      | ok grouped =>
      cases d.orderKeys is orderBy with
      | error e => rfl
      | ok ordered =>
          refine congrArg Except.ok ?_
          simp only [mapValues_join, List.map_append, map_mapValues_texts,
            map_mapValues_conditionClause]

end

end Statement

variable {f}

theorem Query.expressible_mapLiterals {q : Query} :
    (q.mapLiterals f).Expressible d ↔ q.Expressible d := by
  rw [← Statement.exists_select_iff " ", ← Statement.exists_select_iff " ",
    Statement.select_mapLiterals]
  cases Statement.select d " " q <;> simp [Except.map]

end Literals

end AskSql
