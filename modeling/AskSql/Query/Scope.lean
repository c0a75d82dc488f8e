import AskSql.Failure
import AskSql.Query.Basic
import AskSql.Text.Blank

/-!
# References in scope

A query is well scoped when every join starts from a table that is there and brings in one that
is not, and every reference names a table of the query.  `Query.validate` checks this for a query
and for all queries inside of its conditions, and names the first reference that fails.
-/

namespace AskSql

/-- Its first table has a name of blanks. -/
def Failure.emptySource : Failure :=
  .noTable "query has an empty FROM table" none

/-- A join starts from a table that is not there. -/
def Failure.joinOutOfScope (r : Reference) : Failure :=
  .invalidReference s!"join on {r.path} references a table not yet in scope" (some r.table)
    (some r.column)

/-- A join brings in a table that is there already. -/
def Failure.joinedTwice (r : Reference) : Failure :=
  .invalidReference s!"table {r.table} is joined twice" (some r.table) (some r.column)

/-- A reference names a table that the query does not read. -/
def Failure.notInScope (clause : Clause) (r : Reference) : Failure :=
  .invalidReference
    s!"{r.path} in {clause.name} references a table that is neither FROM nor joined"
    (some r.table) (some r.column)

namespace Query

/-- Takes the joins one after the other and gives the tables that are there in the end, in small
letters. -/
def joinScope (scope : List String) : List (Reference × Reference) → Except Failure (List String)
  | [] => .ok scope
  | (left, right) :: rest =>
    if !scope.contains left.tableKey then .error (.joinOutOfScope left)
    else if scope.contains right.tableKey then .error (.joinedTwice right)
    else joinScope (scope ++ [right.tableKey]) rest

theorem joinScope_append (scope : List String) (js ks : List (Reference × Reference)) :
    joinScope scope (js ++ ks) = (joinScope scope js).bind fun scope => joinScope scope ks := by
  induction js generalizing scope with
  | nil => rfl
  | cons j js ih =>
    simp only [List.cons_append, joinScope]
    split
    · rfl
    · split
      · rfl
      · exact ih _

/-- The tables that are there stay, and each join adds its own behind them. -/
theorem joinScope_eq {scope scope' : List String} {js : List (Reference × Reference)}
    (h : joinScope scope js = .ok scope') :
    scope' = scope ++ js.map fun j => j.2.tableKey := by
  induction js generalizing scope with
  | nil => simpa [joinScope] using h.symm
  | cons j js ih =>
    simp only [joinScope] at h
    split at h
    · cases h
    · split at h
      · cases h
      · simpa [List.append_assoc] using ih h

/-- The two sides of each join. -/
def joinSides (q : Query) : List (Reference × Reference) :=
  q.joins.map fun j => (j.left, j.right)

/-- The first reference whose table is not in scope. -/
def strayReference? (scope : List String) (q : Query) : Option (Clause × Reference) :=
  q.references.find? fun (_, r) => !scope.contains r.tableKey

/-- The check of a query, those inside of its conditions aside. -/
def checkScope (q : Query) : Except Failure Unit := do
  if Text.isBlankText q.source then throw .emptySource
  let scope ← joinScope [Text.lower q.source] q.joinSides
  match q.strayReference? scope with
  | some (clause, r) => throw (.notInScope clause r)
  | none => pure ()

mutual

/-- Checks a query and all queries inside of its conditions: those in the filter first, then
those in the filter of the groups and those behind the joins. -/
def validate : Query → Except Failure Unit
  | ⟨source, items, joins, filters, groupBy, having, orderBy, limit, distinct⟩ => do
    checkScope ⟨source, items, joins, filters, groupBy, having, orderBy, limit, distinct⟩
    validateAll filters
    validateAll having
    validateJoins joins

/-- Checks the queries inside of some conditions. -/
def validateAll : List Condition → Except Failure Unit
  | [] => pure ()
  | ⟨_, _, rhs⟩ :: cs => do
    validateComparand rhs
    validateAll cs

/-- Checks the query that a right side is. -/
def validateComparand : Comparand → Except Failure Unit
  | .subquery q => validate q
  | _ => pure ()

/-- Checks the queries inside of the conditions behind joins. -/
def validateJoins : List Join → Except Failure Unit
  | [] => pure ()
  | ⟨_, _, _, cs⟩ :: js => do
    validateAll cs
    validateJoins js

end

end Query

end AskSql
