import AskSql.Proofs.Render.Pieces

/-!
# Statements with and without parameters

A statement with parameters and the same statement with its values spelled out consist of the same
fixed texts in the same order.  Between them stand the placeholders in the one and the values in
the other, and the parameters that are handed out are these values from the first to the last
(`render_agrees`).  So placeholders with numbers count from one without a gap, whatever the clauses
and the nested queries that the values come from.
-/

namespace AskSql

namespace Statement

/-- The text in front of the first value. -/
def opening : Statement → String
  | [] => ""
  | .text s :: rest => s ++ opening rest
  | .value _ :: _ => ""

/-- The values, each with the text behind it. -/
def followed : Statement → List (Literal × String)
  | [] => []
  | .text _ :: rest => followed rest
  | .value v :: rest => (v, opening rest) :: followed rest

theorem parameters_eq (s : Statement) : s.parameters = s.followed.map Prod.fst := by
  induction s with
  | nil => rfl
  | cons piece s ih =>
      cases piece with
      | text _ => exact ih
      | value v => simp [parameters, followed, ih]

/-- Without parameters each value is spelled out in its place. -/
theorem read_inline (d : Dialect) (n : Nat) (s : Statement) :
    s.read d false n = s.opening ++ String.join (s.followed.map fun x => x.1.sql d ++ x.2) := by
  induction s with
  | nil => simp [read, opening, followed]
  | cons piece s ih =>
      cases piece with
      | text t => simp [read, opening, followed, ih, String.append_assoc]
      | value v => simp [read, opening, followed, ih, String.append_assoc]

/-- With parameters each value gives way to the placeholder of its number. -/
theorem read_bound (d : Dialect) (n : Nat) (s : Statement) :
    s.read d true n =
      s.opening ++ String.join (s.followed.mapIdx fun i x => d.placeholder (n + i) ++ x.2) := by
  induction s generalizing n with
  | nil => simp [read, opening, followed]
  | cons piece s ih =>
      cases piece with
      | text t => simp [read, opening, followed, ih, String.append_assoc]
      | value v =>
          have hnumber : ∀ i, n + 1 + i = n + (i + 1) := by
            intro i
            omega
          simp only [read, opening, followed, ih, if_true, List.mapIdx_cons, String.join_cons,
            Nat.add_zero, hnumber, String.empty_append, String.append_assoc]

end Statement

namespace Query

/-- The statement for a query is read off its pieces. -/
theorem renderAs_eq (q : Query) (d : Dialect) (pretty parameterized : Bool) :
    q.renderAs d pretty parameterized =
      q.validate.bind fun _ =>
        (Statement.select d (if pretty then "\n" else " ") q).map fun s =>
          ⟨s.read d parameterized 1, s.kept parameterized⟩ := by
  have hselect := writes_select d parameterized (if pretty then "\n" else " ") q []
  unfold renderAs
  cases q.validate with
  | error e => rfl
  | ok _ =>
      show ((d.select parameterized (if pretty then "\n" else " ") q) []).bind _ = _
      rw [hselect]
      cases Statement.select d (if pretty then "\n" else " ") q with
      | error e => rfl
      | ok s => rfl

/-- Either way of writing a query fails like the other.  Where they succeed, their texts are the
same up to the values: where the one has the placeholders from the first number on, the other has
the parameters of these numbers. -/
theorem render_agrees (q : Query) (d : Dialect) (pretty : Bool) :
    match q.renderBound d pretty, q.render d pretty with
    | .error e, .error e' => e = e'
    | .ok bound, .ok sql =>
      ∃ (first : String) (rest : List (Literal × String)),
        bound.params = rest.map Prod.fst ∧
          bound.sql =
            first ++ String.join (rest.mapIdx fun i x => d.placeholder (i + 1) ++ x.2) ∧
          sql = first ++ String.join (rest.map fun x => x.1.sql d ++ x.2)
    | _, _ => False := by
  rw [renderBound, render, renderAs_eq, renderAs_eq]
  cases q.validate with
  | error e => rfl
  | ok _ =>
      cases Statement.select d (if pretty then "\n" else " ") q with
      | error e => rfl
      | ok s =>
          refine ⟨s.opening, s.followed, s.parameters_eq, ?_, s.read_inline d 1⟩
          have hbound := s.read_bound d 1
          simp only [Nat.add_comm 1] at hbound
          exact hbound

end Query

end AskSql
