import AskSql.Compose.JoinTree
import AskSql.Question.Component

/-!
# Mentions in a schema

A mention becomes a reference once its table and column are found in the schema and the table is
joined.  A mention that is not found leaves the join tree as it is.
-/

namespace AskSql

/-- Results with the join tree that has the tables they need. -/
abbrev Joined (α : Type) := α × JoinTree

namespace JoinTree

/-- A result with its tree, or else no result and the tree as it is. -/
def attempt {α : Type} (t : JoinTree) (result : Option (Joined α)) : Joined (Option α) :=
  match result with
  | some (x, t) => (some x, t)
  | none => (none, t)

/-- Goes through a list, each time on the tree that was left before, and keeps what is found. -/
def collect {α β : Type} (f : JoinTree → α → Joined (Option β)) :
    JoinTree → List α → Joined (List β)
  | t, [] => ([], t)
  | t, x :: xs =>
    let (y, t) := f t x
    let (ys, t) := collect f t xs
    (y.toList ++ ys, t)

end JoinTree

namespace Mention

/-- A column of a table that is there, or else of the first table with such a column that can be
joined. -/
def resolveColumn? (s : Schema) (t : JoinTree) (column : String) : Option (Joined Reference) :=
  let here := t.tables.findSome? fun table => (s.column? table column).map fun c =>
    ((⟨table, c.name, none⟩ : Reference), t)
  here <|> (s.tablesWithColumn column).findSome? fun table => do
    let t ← t.join? s table.name
    let c ← table.column? column
    return (⟨table.name, c.name, none⟩, t)

/-- What a mention refers to: a column of its table, the label of a table as a whole, or a column
of some table. -/
def resolve? (s : Schema) (t : JoinTree) (m : Mention) : Option (Joined Reference) :=
  match m.column, m.table with
  | none, some name => do
    let table ← s.table? name
    let label ← table.labelColumn?
    let t ← t.join? s table.name
    return (⟨table.name, label.name, none⟩, t)
  | some column, some table => do
    let c ← s.column? table column
    let t ← t.join? s table
    return (⟨table, c.name, none⟩, t)
  | some column, none => resolveColumn? s t column
  | none, none => none

/-- What a mention refers to, if it is found. -/
def resolve (s : Schema) (t : JoinTree) (m : Mention) : Joined (Option Reference) :=
  t.attempt (m.resolve? s t)

end Mention

end AskSql
