import AskSql.Failure
import AskSql.Query.Basic
import AskSql.Schema.JoinPath

/-!
# Join trees

While a query is put together the tables that it needs are joined to the base table, each by a
shortest join path (`JoinTree.join?`).  Every hop starts from a table that is there and brings in
another one, so the hops form a tree.  The query may in the end start from another table of the
tree than the base; `JoinTree.joinsFrom` then turns the hops round where that is needed.
-/

namespace AskSql

/-- The first member that a test accepts, and the others in their order. -/
def pick? {α : Type} (accepts : α → Bool) : List α → Option (α × List α)
  | [] => none
  | x :: xs =>
    if accepts x then some (x, xs) else (pick? accepts xs).map fun (y, ys) => (y, x :: ys)

/-- What is picked and what is left are what was there. -/
theorem perm_of_pick? {α : Type} {accepts : α → Bool} {xs ys : List α} {y : α}
    (h : pick? accepts xs = some (y, ys)) : (y :: ys).Perm xs := by
  induction xs generalizing ys with
  | nil => simp [pick?] at h
  | cons x xs ih =>
    simp only [pick?] at h
    split at h
    · simp only [Option.some.injEq, Prod.mk.injEq] at h
      obtain ⟨rfl, rfl⟩ := h
      exact List.Perm.refl _
    · obtain ⟨⟨z, zs⟩, hz, he⟩ := Option.map_eq_some_iff.1 h
      simp only [Prod.mk.injEq] at he
      obtain ⟨rfl, rfl⟩ := he
      exact (List.Perm.swap x z zs).trans ((ih hz).cons x)

theorem length_of_pick? {α : Type} {accepts : α → Bool} {xs ys : List α} {y : α}
    (h : pick? accepts xs = some (y, ys)) : ys.length < xs.length := by
  have := (perm_of_pick? h).length_eq
  simp only [List.length_cons] at this
  omega

/-- A step of a join path as a join. -/
def Hop.toJoin (h : Hop) : Join :=
  { left := ⟨h.fromTable, h.fromColumn, none⟩, right := ⟨h.toTable, h.toColumn, none⟩ }

/-- Tables that are joined to a base table. -/
structure JoinTree where
  base : String
  /-- The table that the query starts from. -/
  root : String
  hops : List Join := []

namespace JoinTree

/-- A base table on its own. -/
def ofBase (base : String) : JoinTree :=
  { base, root := base }

/-- The tables in the order in which they were joined. -/
def tables (t : JoinTree) : List String :=
  t.base :: t.hops.map Join.table

@[simp] theorem tables_ofBase (base : String) : (ofBase base).tables = [base] :=
  rfl

/-- The table is there, whatever the case of its name. -/
def hasTable (t : JoinTree) (table : String) : Bool :=
  t.tables.any fun u => Text.sameFold u table

/-- Joins a table by a shortest path; none where no path leads to it. -/
def join? (s : Schema) (t : JoinTree) (table : String) : Option JoinTree :=
  (s.joinPath? t.tables table).map fun path => { t with hops := t.hops ++ path.map Hop.toJoin }

/-- Joins a table if a path leads to it. -/
def join (s : Schema) (t : JoinTree) (table : String) : JoinTree :=
  (t.join? s table).getD t

/-- The first table of the tree for which something is found in the schema. -/
def findInTables? {α : Type} (s : Schema) (t : JoinTree) (f : Table → Option α) : Option α :=
  t.tables.findSome? fun name => (s.table? name).bind f

/-- The first date of the tables. -/
def dateColumn? (s : Schema) (t : JoinTree) : Option Reference :=
  t.findInTables? s fun table => table.dateColumn?.map fun c => ⟨table.name, c.name, none⟩

/-- One side of a join belongs to a table that is there. -/
def touches (scope : List String) (j : Join) : Bool :=
  scope.contains j.left.tableKey || scope.contains j.right.tableKey

/-- The join with a table that is there on its left side. -/
def towards (scope : List String) (j : Join) : Join :=
  if scope.contains j.left.tableKey then j else j.flipped

/-- Takes the joins one after the other, always the first that is connected with the tables that
are there. -/
def orient? (scope : List String) (pending : List Join) : Option (List Join) :=
  if pending.isEmpty then some []
  else
    match _h : pick? (touches scope) pending with
    | none => none
    | some (j, rest) =>
      let j := towards scope j
      (orient? (j.right.tableKey :: scope) rest).map (j :: ·)
termination_by pending.length
decreasing_by exact length_of_pick? _h

/-- No join is lost and none is added. -/
theorem length_of_orient? {scope : List String} {pending joins : List Join}
    (h : orient? scope pending = some joins) : joins.length = pending.length := by
  fun_induction orient? scope pending generalizing joins with
  | case1 scope pending hnil =>
    simp only [Option.some.injEq] at h
    simp [← h, List.isEmpty_iff.1 hnil]
  | case2 => cases h
  | case3 scope pending _ j rest hpick =>
    rename_i ih
    obtain ⟨js, hjs, rfl⟩ := Option.map_eq_some_iff.1 h
    have hperm := (perm_of_pick? hpick).length_eq
    simp only [List.length_cons, ih hjs] at hperm ⊢
    exact hperm

/-- Hops that are not connected with the table to start from. -/
def disconnected (root : String) : Failure :=
  .internal s!"join hops are not connected to {root}" none

/-- The hops as joins of a query that starts from `root`. -/
def joinsFrom (t : JoinTree) (root : String) : Except Failure (List Join) :=
  match orient? [Text.lower root] t.hops with
  | some joins => .ok joins
  | none => .error (disconnected root)

end JoinTree

end AskSql
