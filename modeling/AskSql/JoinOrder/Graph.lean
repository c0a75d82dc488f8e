import AskSql.Query.Basic

/-!
# Orders of the joined tables

The tables of a query form a graph with an edge for each join.  An order lists all tables by their
numbers in the query, where each table after the first has an edge to an earlier one.
`Query.reordered?` gives the query that joins its tables in an order, and `Query.foldOrders` goes
through the orders one after the other, from the first in the dictionary to the last, until it is
told to stop.
-/

namespace AskSql

/-- Goes through a list until a step says that it is the last one; says whether it got to the
end. -/
def foldUntil {σ α : Type} (f : σ → α → σ × Bool) : σ → List α → σ × Bool
  | s, [] => (s, true)
  | s, a :: as =>
    match f s a with
    | (s, true) => foldUntil f s as
    | (s, false) => (s, false)

theorem foldUntil_append {σ α : Type} (f : σ → α → σ × Bool) (s : σ) (as bs : List α) :
    foldUntil f s (as ++ bs) =
      match foldUntil f s as with
      | (s, true) => foldUntil f s bs
      | (s, false) => (s, false) := by
  induction as generalizing s with
  | nil => rfl
  | cons a as ih =>
    simp only [List.cons_append, foldUntil]
    cases h : f s a with
    | mk t go => cases go <;> simp [ih]

namespace Query

/-- The tables of the query may be joined in another order: there are several, and all of them are
matched on both sides. -/
def isReorderable (q : Query) : Bool :=
  !q.joins.isEmpty && !q.hasLeftJoin

/-- The table of a number. -/
def tableAt (q : Query) (i : Nat) : String :=
  q.tables.getD i ""

/-- One of the numbers stands for the table. -/
def placesTable (q : Query) (placed : List Nat) (table : String) : Bool :=
  placed.any fun p => Text.sameFold (q.tableAt p) table

/-- The join that brings a table in next to those that are placed: the first edge between them,
turned so that the table stands on its right. -/
def edgeTo? (q : Query) (placed : List Nat) (t : Nat) : Option Join :=
  q.joins.findSome? fun j =>
    if Text.sameFold j.right.table (q.tableAt t) && q.placesTable placed j.left.table then
      some { left := j.left, right := j.right }
    else if Text.sameFold j.left.table (q.tableAt t) && q.placesTable placed j.right.table then
      some { left := j.right, right := j.left }
    else none

/-- The joins that bring tables in one after the other. -/
def joinsAlong? (q : Query) : List Nat → List Nat → Option (List Join)
  | _, [] => some []
  | placed, t :: ts => do
    let j ← q.edgeTo? placed t
    let js ← q.joinsAlong? (placed ++ [t]) ts
    return j :: js

/-- The conditions that stand behind the joins. -/
def joinConditions (q : Query) : List Condition :=
  q.joins.flatMap Join.conditions

/-- The number of joins after which all tables of a condition are there. -/
def scopeDepth? (q : Query) (order : List Nat) (c : Condition) : Option Nat :=
  (List.range order.length).find? fun i =>
    c.tables.all fun t => q.placesTable (order.take (i + 1)) t

/-- The query with its tables joined in an order.  A condition behind a join moves to the first
join after which all of its tables are there, or to the filter where this is the first table. -/
def reordered? (q : Query) (order : List Nat) : Option Query :=
  match order with
  | [] => none
  | first :: rest => do
    let joins ← q.joinsAlong? [first] rest
    let behind (i : Nat) :=
      q.joinConditions.filter fun c => q.scopeDepth? order c == some (i + 1)
    let inFilter := q.joinConditions.filter fun c => (q.scopeDepth? order c).getD 0 == 0
    return { q with
      source := q.tableAt first
      joins := joins.mapIdx fun i j => { j with conditions := behind i }
      filters := q.filters ++ inFilter }

/-- The tables that may come next in an order. -/
def nextTables (q : Query) (placed : List Nat) : List Nat :=
  (List.range q.tables.length).filter fun t =>
    placed.isEmpty || (!placed.contains t && (q.edgeTo? placed t).isSome)

/-- The ways to go on for `n` tables from some tables that are placed. -/
def ordersFrom (q : Query) : Nat → List Nat → List (List Nat)
  | 0, placed => [placed]
  | n + 1, placed => (q.nextTables placed).flatMap fun t => q.ordersFrom n (placed ++ [t])

/-- All orders. -/
def orders (q : Query) : List (List Nat) :=
  q.ordersFrom q.tables.length []

/-- Goes through the ways to go on for `n` tables. -/
def foldOrdersFrom {σ : Type} (q : Query) (visit : σ → List Nat → σ × Bool) :
    Nat → List Nat → σ → σ × Bool
  | 0, placed, s => visit s placed
  | n + 1, placed, s =>
    foldUntil (fun s t => q.foldOrdersFrom visit n (placed ++ [t]) s) s (q.nextTables placed)

/-- Goes through the orders until a visit says that it is the last one. -/
def foldOrders {σ : Type} (q : Query) (visit : σ → List Nat → σ × Bool) (s : σ) : σ × Bool :=
  q.foldOrdersFrom visit q.tables.length [] s

/-- Going through the orders visits all of them as they are listed. -/
theorem foldOrdersFrom_eq {σ : Type} (q : Query) (visit : σ → List Nat → σ × Bool) (n : Nat)
    (placed : List Nat) (s : σ) :
    q.foldOrdersFrom visit n placed s = foldUntil visit s (q.ordersFrom n placed) := by
  induction n generalizing placed s with
  | zero =>
    simp only [foldOrdersFrom, ordersFrom, foldUntil]
    cases visit s placed with
    | mk t go => cases go <;> rfl
  | succ n ih =>
    simp only [foldOrdersFrom, ordersFrom]
    induction q.nextTables placed generalizing s with
    | nil => rfl
    | cons t ts ih' =>
      simp only [foldUntil, List.flatMap_cons, foldUntil_append, ih]
      cases foldUntil visit s (q.ordersFrom n (placed ++ [t])) with
      | mk s' go => cases go <;> simp [← ih', ih]

theorem foldOrders_eq {σ : Type} (q : Query) (visit : σ → List Nat → σ × Bool) (s : σ) :
    q.foldOrders visit s = foldUntil visit s q.orders :=
  q.foldOrdersFrom_eq visit _ _ _

/-- The tables as the query names them. -/
def inputOrder (q : Query) : List Nat :=
  List.range q.tables.length

end Query

end AskSql
