import AskSql.Proofs.Query.Scope
import AskSql.Proofs.Render.Pieces
import Mathlib.Data.List.Forall2

/-!
# The clauses that are written

Whatever becomes of the values of a query, and wherever it stands in a statement, its text is the
row of its clauses (`Query.HasText.exists_clauses`).  What is selected and the keys of the order
have no values in them; the clause of a join starts with the table that it brings in and goes on
with what it is joined on (`Join.IsWritten`).
-/

namespace AskSql

/-- The results of a list are those of its members one by one. -/
theorem Failure.mapM_eq_ok_iff {α β : Type} {f : α → Except Failure β} {as : List α}
    {bs : List β} : as.mapM f = .ok bs ↔ List.Forall₂ (fun a b => f a = .ok b) as bs := by
  induction as generalizing bs with
  | nil =>
      rw [List.mapM_nil, List.forall₂_nil_left_iff]
      exact ⟨fun h => (Except.ok.inj h).symm, fun h => congrArg Except.ok h.symm⟩
  | cons a as ih =>
      rw [List.mapM_cons, List.forall₂_cons_left_iff, bind_eq_ok_iff]
      simp only [bind_eq_ok_iff, ih]
      constructor
      · rintro ⟨b, hb, bs, hbs, h⟩
        exact ⟨b, bs, hb, hbs, (Except.ok.inj h).symm⟩
      · rintro ⟨b, bs, hb, hbs, rfl⟩
        exact ⟨b, hb, bs, hbs, rfl⟩

theorem Failure.exists_mem_of_mapM {α β : Type} {f : α → Except Failure β} {as : List α}
    {bs : List β} (h : as.mapM f = .ok bs) {a : α} (ha : a ∈ as) : ∃ b ∈ bs, f a = .ok b := by
  have hall := mapM_eq_ok_iff.1 h
  clear h
  induction hall with
  | nil => cases ha
  | cons hb _ ih =>
      obtain rfl | ha := List.mem_cons.1 ha
      · exact ⟨_, List.mem_cons_self, hb⟩
      · obtain ⟨c, hc, hac⟩ := ih ha
        exact ⟨c, List.mem_cons_of_mem _ hc, hac⟩

/-- The text of a join: the table that it brings in, and behind it the equality of the two columns
and each of the conditions. -/
def Join.IsWritten (d : Dialect) (parameterized : Bool) (j : Join) (text : String) : Prop :=
  ∃ params extra params', (d.conditions parameterized j.conditions).run params =
      .ok (extra, params') ∧
    text = j.kind.sql ++ " " ++ d.quoteName j.right.table ++ " ON " ++
      " AND ".intercalate ((d.reference j.left ++ " = " ++ d.reference j.right) :: extra)

/-- A text of a query, be it a statement of its own or inside of one, behind some parameters. -/
def Query.HasText (q : Query) (d : Dialect) (parameterized : Bool) (between sql : String) : Prop :=
  ∃ params params', (d.select parameterized between q).run params = .ok (sql, params')

namespace Writer

variable {α β : Type}

/-- Writing goes on with what is there only if this could be written. -/
theorem run_bind_eq_ok_iff {x : Writer α} {f : α → Writer β} {params params' : List Literal}
    {b : β} : (x >>= f).run params = .ok (b, params') ↔
      ∃ a between, x.run params = .ok (a, between) ∧ (f a).run between = .ok (b, params') := by
  rw [StateT.run_bind, Failure.bind_eq_ok_iff, Prod.exists]

theorem run_lift_eq_ok_iff {x : Except Failure α} {params params' : List Literal} {a : α} :
    (liftM x : Writer α).run params = .ok (a, params') ↔ x = .ok a ∧ params' = params := by
  cases x with
  | error e => simp [StateT.run, lift_apply, Except.map]
  | ok b => simp [StateT.run, lift_apply, Except.map, eq_comm]

end Writer

variable {q : Query} {d : Dialect} {pretty parameterized : Bool} {between sql : String}

/-- The joins are written one after the other. -/
theorem Dialect.forall₂_isWritten_of_joins {js : List Join} {params params' : List Literal}
    {texts : List String} (h : (d.joins parameterized js).run params = .ok (texts, params')) :
    List.Forall₂ (Join.IsWritten d parameterized) js texts := by
  induction js generalizing params params' texts with
  | nil =>
      obtain ⟨rfl, -⟩ := Prod.mk.inj (Except.ok.inj h)
      exact .nil
  | cons j js ih =>
      obtain ⟨kind, left, right, cs⟩ := j
      obtain ⟨extra, behind, hextra, h⟩ := Writer.run_bind_eq_ok_iff.1 h
      obtain ⟨rest, _, hrest, h⟩ := Writer.run_bind_eq_ok_iff.1 h
      obtain ⟨rfl, -⟩ := Prod.mk.inj (Except.ok.inj h)
      exact .cons ⟨params, extra, behind, hextra, rfl⟩ (ih hrest)

namespace Query

/-- A statement is a text of its query, which passes the check. -/
theorem hasText_of_renderAs {r : Rendered} (h : q.renderAs d pretty parameterized = .ok r) :
    q.validate = .ok () ∧ q.HasText d parameterized (if pretty then "\n" else " ") r.sql := by
  obtain ⟨hvalid, h⟩ := (Failure.check_eq_ok_iff _ _ _).1 h
  obtain ⟨⟨sql, params⟩, hsql, h⟩ := (Failure.bind_eq_ok_iff _ _ _).1 h
  obtain rfl := Except.ok.inj h
  exact ⟨hvalid, [], params, hsql⟩

/-- A query is written clause by clause. -/
theorem HasText.exists_clauses (h : q.HasText d parameterized between sql) :
    ∃ selected joined filtered grouped ordered,
      d.items q.source q.items = .ok selected ∧
      List.Forall₂ (Join.IsWritten d parameterized) q.joins joined ∧
      d.orderKeys q.items q.orderBy = .ok ordered ∧
      sql = between.intercalate
        (Dialect.clause (if q.distinct then "SELECT DISTINCT " else "SELECT ") ", " selected ++
          ["FROM " ++ d.quoteName q.source] ++ joined ++
          Dialect.clause "WHERE " " AND " filtered ++
          Dialect.clause "GROUP BY " ", " (q.groupBy.map d.reference) ++
          Dialect.clause "HAVING " " AND " grouped ++ Dialect.clause "ORDER BY " ", " ordered ++
          q.limit.toList.map d.limit) := by
  obtain ⟨source, is, js, filters, groupBy, having, orderBy, limit, distinct⟩ := q
  obtain ⟨params, params', h⟩ := h
  obtain ⟨selected, _, hselected, h⟩ := Writer.run_bind_eq_ok_iff.1 h
  obtain ⟨joined, _, hjoined, h⟩ := Writer.run_bind_eq_ok_iff.1 h
  obtain ⟨filtered, _, -, h⟩ := Writer.run_bind_eq_ok_iff.1 h
  obtain ⟨grouped, _, -, h⟩ := Writer.run_bind_eq_ok_iff.1 h
  obtain ⟨ordered, _, hordered, h⟩ := Writer.run_bind_eq_ok_iff.1 h
  obtain ⟨rfl, -⟩ := Prod.mk.inj (Except.ok.inj h)
  exact ⟨selected, joined, filtered, grouped, ordered, (Writer.run_lift_eq_ok_iff.1 hselected).1,
    Dialect.forall₂_isWritten_of_joins hjoined, (Writer.run_lift_eq_ok_iff.1 hordered).1, rfl⟩

end Query
end AskSql
