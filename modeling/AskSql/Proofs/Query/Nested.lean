import AskSql.Optimizer.Advice
import AskSql.Proofs.Query.Scope
import Mathlib.Logic.Relation

/-!
# Queries inside of queries

A condition may compare with a query, whose conditions may do the same.  `Query.Encloses` reaches
all queries that stand in a query this way, at any depth, and the query itself; `Query.Reads` says
which tables they read.

The check of a query goes to all of these: it passes exactly if the references of each of them are
in scope (`Query.validate_eq_ok_iff_forall_encloses`).
-/

namespace AskSql
namespace Query

/-- The query reads a table, be it in a subquery. -/
inductive Reads : Query → String → Prop where
  | table {q : Query} {t : String} (h : t ∈ q.tables) : Reads q t
  | subquery {q sub : Query} {t : String} (hsub : sub ∈ q.subqueries) (h : Reads sub t) : Reads q t

/-- The first query is the second one or has it inside of its conditions, at any depth. -/
def Encloses : Query → Query → Prop :=
  Relation.ReflTransGen fun q sub => sub ∈ q.subqueries

variable {q p sub : Query} {t : String}

theorem mem_subqueries {sub : Query} :
    sub ∈ q.subqueries ↔ ∃ c ∈ q.conditions, c.rhs = .subquery sub := by
  simp only [subqueries, List.mem_filterMap]
  constructor
  · rintro ⟨c, hc, hsub⟩
    refine ⟨c, hc, ?_⟩
    cases hrhs : c.rhs with
    | subquery sub' =>
        rw [hrhs] at hsub
        exact congrArg _ (Option.some.inj hsub)
    | _ =>
        rw [hrhs] at hsub
        cases hsub
  · rintro ⟨c, hc, hrhs⟩
    exact ⟨c, hc, by rw [hrhs]; rfl⟩

/-! ### What a query encloses -/

theorem Encloses.refl (q : Query) : q.Encloses q :=
  Relation.ReflTransGen.refl

theorem Encloses.of_subquery (hsub : sub ∈ q.subqueries) (h : sub.Encloses p) : q.Encloses p :=
  Relation.ReflTransGen.head hsub h

/-- The tables that are read are those of the query itself and those that its subqueries read. -/
theorem reads_iff : q.Reads t ↔ t ∈ q.tables ∨ ∃ sub ∈ q.subqueries, sub.Reads t := by
  constructor
  · rintro (h | ⟨hsub, h⟩)
    · exact .inl h
    · exact .inr ⟨_, hsub, h⟩
  · rintro (h | ⟨sub, hsub, h⟩)
    · exact .table h
    · exact .subquery hsub h

/-- A query is larger than those inside of its conditions. -/
theorem sizeOf_lt_of_mem_subqueries (h : sub ∈ q.subqueries) : sizeOf sub < sizeOf q := by
  obtain ⟨⟨lhs, op, _⟩, hc, rfl⟩ := mem_subqueries.1 h
  have hcondition : sizeOf sub < sizeOf (Condition.mk lhs op (.subquery sub)) := by
    simp only [Condition.mk.sizeOf_spec, Comparand.subquery.sizeOf_spec]
    omega
  refine Nat.lt_trans hcondition ?_
  obtain ⟨source, items, joins, filters, groupBy, having, orderBy, limit, distinct⟩ := q
  simp only [conditions, List.mem_append, List.mem_flatMap] at hc
  rw [Query.mk.sizeOf_spec]
  obtain (hc | hc) | ⟨⟨kind, left, right, conditions⟩, hj, hc⟩ := hc
  · have := List.sizeOf_lt_of_mem hc
    omega
  · have := List.sizeOf_lt_of_mem hc
    omega
  · have hjoin := List.sizeOf_lt_of_mem hj
    have hbehind := List.sizeOf_lt_of_mem hc
    rw [Join.mk.sizeOf_spec] at hjoin
    simp only at hbehind
    omega

/-! ### The check -/

/-- The subqueries of a query that passes the check pass it. -/
theorem validate_of_mem_subqueries (h : q.validate = .ok ()) (hsub : sub ∈ q.subqueries) :
    sub.validate = .ok () := by
  obtain ⟨c, hc, hrhs⟩ := mem_subqueries.1 hsub
  exact ((validate_eq_ok_iff q).1 h).subqueries_valid c hc sub hrhs

/-- What a query encloses passes the check if the query does. -/
theorem Encloses.validate (hp : q.Encloses p) (h : q.validate = .ok ()) : p.validate = .ok () := by
  induction hp with
  | refl => exact h
  | tail _ hsub ih => exact validate_of_mem_subqueries ih hsub

/-- The check of a query is the check of its own references and of its subqueries. -/
theorem validate_eq_ok_iff_checkScope :
    q.validate = .ok () ↔
      q.checkScope = .ok () ∧ ∀ sub ∈ q.subqueries, sub.validate = .ok () := by
  constructor
  · intro h
    refine ⟨?_, fun sub hsub => validate_of_mem_subqueries h hsub⟩
    rw [validate_eq, Failure.check_eq_ok_iff] at h
    exact h.1
  · rintro ⟨hscope, hsubs⟩
    obtain ⟨hnamed, hjoins, hrefs⟩ := (checkScope_eq_ok_iff q).1 hscope
    refine (validate_eq_ok_iff q).2 ⟨hnamed, fun i j hj => (hjoins i j hj).1,
      fun i j hj => (hjoins i j hj).2, hrefs, ?_⟩
    exact fun c hc sub hrhs => hsubs sub (mem_subqueries.2 ⟨c, hc, hrhs⟩)

/-- The check reaches each query inside of a query, at whatever depth it stands. -/
theorem validate_eq_ok_iff_forall_encloses (q : Query) :
    q.validate = .ok () ↔ ∀ p, q.Encloses p → p.checkScope = .ok () := by
  constructor
  · exact fun h p hp => (validate_eq_ok_iff_checkScope.1 (hp.validate h)).1
  · -- by induction on the size of the query, as its subqueries are smaller
    induction hsize : sizeOf q using Nat.strongRecOn generalizing q with
    | ind n ih =>
        subst hsize
        intro h
        refine validate_eq_ok_iff_checkScope.2 ⟨h q (.refl q), fun sub hsub => ?_⟩
        exact ih _ (sizeOf_lt_of_mem_subqueries hsub) sub rfl fun p hp =>
          h p (.of_subquery hsub hp)

end Query
end AskSql
