import AskSql.Schema.ColumnType
import AskSql.Schema.Name

/-!
# Schemas

A schema holds tables with their columns, the relationships between columns, and functions.
Names are looked up in their normal form, so case and quotation marks play no part.  The first
table or column of a name is the one that is found.
-/

namespace AskSql

open Name (surfaceForms)

/-- Two names have the same normal form. -/
def sameName (a b : String) : Bool :=
  Name.normalize a == Name.normalize b

@[simp] theorem sameName_self (a : String) : sameName a a = true := by
  simp [sameName]

/-- A column of a table, by names. -/
structure Pointer where
  table : String
  column : String
  deriving DecidableEq, Repr

/-- Two pointers name the same column. -/
def Pointer.same (p q : Pointer) : Bool :=
  sameName p.table q.table && sameName p.column q.column

/-- A column of a schema. -/
structure Column where
  name : String
  type : ColumnType
  nullable : Bool := true
  primaryKey : Bool := false
  indexed : Bool := false
  /-- The column that a value of this one is found in. -/
  references : Option Pointer := none
  synonyms : List String := []
  deriving DecidableEq, Repr

namespace Column

/-- The column as the primary key: indexed and never null. -/
def asPrimaryKey (c : Column) : Column :=
  { c with primaryKey := true, nullable := false, indexed := true }

/-- There is an index that finds its values. -/
def hasIndex (c : Column) : Bool :=
  c.primaryKey || c.indexed

/-- Its values stand for rows and are not to be computed with. -/
def isKeyLike (c : Column) : Bool :=
  let n := Name.normalize c.name
  c.primaryKey || c.references.isSome || n == "id" || Name.endsIn n "_id"

/-- A number, as far as is known, that may be computed with. -/
def isMeasure (c : Column) : Bool :=
  (c.type.isNumeric || c.type == .unknown) && !c.isKeyLike

end Column

/-- The letters stand somewhere in the text. -/
def containsText (s part : String) : Bool :=
  go part.toList s.toList
where
  /-- The letters stand at or after this place. -/
  go (part : List Char) : List Char → Bool
    | [] => part.isEmpty
    | c :: cs => part.isPrefixOf (c :: cs) || go part cs

/-- A table of a schema. -/
structure Table where
  name : String
  columns : List Column := []
  /-- The estimated number of rows, where it is known. -/
  rowCount : Option Nat := none
  synonyms : List String := []
  deriving DecidableEq, Repr

/-- The sum of some numbers. -/
def total (ns : List Nat) : Nat :=
  ns.foldr (fun n sum => n + sum) 0

namespace Table

/-- The column of a name. -/
def column? (t : Table) (name : String) : Option Column :=
  t.columns.find? fun c => sameName c.name name

/-- There is a column of the name. -/
def hasColumn (t : Table) (name : String) : Bool :=
  (t.column? name).isSome

/-- The column that tells the rows apart: the first declared one, or one named `id`. -/
def primaryKey? (t : Table) : Option Column :=
  t.columns.find? Column.primaryKey <|> t.column? "id"

/-- Names of columns that say what a row is about, the best first. -/
def labelNames : List String :=
  ["name", "title", "label", "full_name", "display_name", "description"]

/-- The column that says what a row is about. -/
def labelColumn? (t : Table) : Option Column :=
  labelNames.findSome? t.column? <|>
    t.columns.find? (fun c => c.type == .text && !c.isKeyLike) <|> t.primaryKey?

/-- The name of a column speaks of time. -/
def speaksOfTime (c : Column) : Bool :=
  let n := Name.normalize c.name
  containsText n "date" || Name.endsIn n "_at" || n == "created" || containsText n "time"

/-- The column that says when a row came about. -/
def dateColumn? (t : Table) : Option Column :=
  t.columns.find? (fun c => c.type.isTemporal) <|> t.columns.find? speaksOfTime

/-- The columns to compute with. -/
def measures (t : Table) : List Column :=
  t.columns.filter Column.isMeasure

/-- The estimated size of a row in bytes. -/
def rowWidth (t : Table) : Nat :=
  max (total (t.columns.map fun c => c.type.width)) 8

end Table

/-- What a function of a schema is applied to. -/
inductive FunctionKind where
  | scalar | aggregate | window
  deriving DecidableEq, Repr

/-- A function of a schema. -/
structure SchemaFunction where
  name : String
  kind : FunctionKind
  params : List String := []
  returnType : ColumnType
  deriving DecidableEq, Repr

/-- How many rows belong together in a relationship, read from its first side. -/
inductive Cardinality where
  | oneToOne | manyToOne | oneToMany | manyToMany
  deriving DecidableEq, Repr

/-- A value of the column `source` is found in the column `target`. -/
structure Relationship where
  source : Pointer
  target : Pointer
  cardinality : Cardinality
  deriving DecidableEq, Repr

/-- A schema. -/
structure Schema where
  tables : List Table := []
  relationships : List Relationship := []
  functions : List SchemaFunction := []
  deriving DecidableEq, Repr

namespace Schema

/-- There are no tables. -/
def isEmpty (s : Schema) : Bool :=
  s.tables.isEmpty

/-- The table of a name. -/
def table? (s : Schema) (name : String) : Option Table :=
  s.tables.find? fun t => sameName t.name name

/-- The column of a table, by names. -/
def column? (s : Schema) (table column : String) : Option Column :=
  (s.table? table).bind fun t => t.column? column

/-- The table that a word of a question means: by its name, by one of its forms in singular or
plural, or by a synonym. -/
def findTable? (s : Schema) (word : String) : Option Table :=
  let wanted := Name.wordsToSnake (Name.normalize word)
  if wanted.isEmpty then none
  else
    s.table? wanted <|> s.tables.find? fun t =>
      let forms := surfaceForms t.name
      forms.contains (Name.singular wanted) || forms.contains (Name.plural wanted) ||
        forms.contains wanted || t.synonyms.any fun y => Name.normalize y == wanted

/-- The tables that have a column of the name. -/
def tablesWithColumn (s : Schema) (column : String) : List Table :=
  s.tables.filter fun t => t.hasColumn column

/-- The function of a name. -/
def function? (s : Schema) (name : String) : Option SchemaFunction :=
  s.functions.find? fun f => sameName f.name name

/-- The estimated number of rows of a table, where it is known. -/
def rowCount? (s : Schema) (table : String) : Option Nat :=
  (s.table? table).bind Table.rowCount

/-- The name of a table as the schema writes it; a name that it does not know stays. -/
def tableName (s : Schema) (name : String) : String :=
  ((s.table? name).map Table.name).getD name

end Schema

/-- Changes the first member that a test accepts, if there is one. -/
def updateFirst {α : Type} (accepts : α → Bool) (f : α → α) : List α → Option (List α)
  | [] => none
  | x :: xs => if accepts x then some (f x :: xs) else (updateFirst accepts f xs).map (x :: ·)

/-- What is changed is the first member that is accepted. -/
theorem updateFirst_cases {α : Type} (accepts : α → Bool) (f : α → α) (xs : List α) :
    (∀ x ∈ xs, accepts x = false) ∧ updateFirst accepts f xs = none ∨
      ∃ before x after, xs = before ++ x :: after ∧ (∀ y ∈ before, accepts y = false) ∧
        accepts x = true ∧ updateFirst accepts f xs = some (before ++ f x :: after) := by
  induction xs with
  | nil => exact .inl ⟨nofun, rfl⟩
  | cons x xs ih =>
      rw [updateFirst]
      by_cases haccepts : accepts x = true
      · rw [if_pos haccepts]
        exact .inr ⟨[], x, xs, rfl, nofun, haccepts, rfl⟩
      · have hrefuses := Bool.eq_false_iff.2 haccepts
        rw [if_neg haccepts]
        rcases ih with ⟨hnone, heq⟩ | ⟨before, y, after, rfl, hbefore, hy, heq⟩
        · exact .inl ⟨List.forall_mem_cons.2 ⟨hrefuses, hnone⟩, by rw [heq]; rfl⟩
        · exact .inr ⟨x :: before, y, after, rfl, List.forall_mem_cons.2 ⟨hrefuses, hbefore⟩, hy,
            by rw [heq]; rfl⟩

/-- One member is changed, and the others stay where they are. -/
theorem updateFirst_eq_some {α : Type} {accepts : α → Bool} {f : α → α} {xs ys : List α}
    (h : updateFirst accepts f xs = some ys) :
    ∃ before x after, xs = before ++ x :: after ∧ ys = before ++ f x :: after := by
  obtain ⟨-, hnone⟩ | ⟨before, x, after, hsplit, -, -, hsome⟩ := updateFirst_cases accepts f xs
  · rw [hnone] at h
    cases h
  · exact ⟨before, x, after, hsplit, Option.some.inj (h.symm.trans hsome)⟩

namespace Schema

/-- Sets the number of rows of a table; none where there is no such table. -/
def setRowCount? (s : Schema) (table : String) (rows : Nat) : Option Schema :=
  (updateFirst (fun t => sameName t.name table) (fun t => { t with rowCount := some rows })
    s.tables).map fun tables => { s with tables }

/-- Marks a column as indexed; none where there is no such column. -/
def markIndexed? (s : Schema) (table column : String) : Option Schema := do
  let t ← s.table? table
  let columns ← updateFirst (fun c => sameName c.name column)
    (fun c => { c with indexed := true }) t.columns
  let tables ← updateFirst (fun t => sameName t.name table) (fun t => { t with columns })
    s.tables
  return { s with tables }

end Schema

end AskSql
