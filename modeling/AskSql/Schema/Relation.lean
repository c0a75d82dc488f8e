import AskSql.Schema.Basic

/-!
# Relationships of a schema

Tables and relationships are added one by one.  A relationship is kept once, whatever the case of
its names; a table takes the place of an earlier one of its name.  Columns that refer to another
table bring a relationship with them, and columns that are named for another table can be taken
to refer to its key (`Schema.inferRelationships`).
-/

namespace AskSql

namespace Schema

/-- The two relationships join the same columns, in the same direction. -/
def sameEnds (r t : Relationship) : Bool :=
  r.source.same t.source && r.target.same t.target

/-- Adds a relationship to a list that does not have it. -/
def insertRelationship (rs : List Relationship) (r : Relationship) : List Relationship :=
  if rs.any fun t => sameEnds t r then rs else rs ++ [r]

/-- Adds a relationship, unless there is one between the same columns. -/
def addRelationship (s : Schema) (r : Relationship) : Schema :=
  { s with relationships := insertRelationship s.relationships r }

/-- The relationships that the columns of a table declare. -/
def declaredRelationships (t : Table) : List Relationship :=
  t.columns.filterMap fun c => c.references.map fun target =>
    { source := ⟨t.name, c.name⟩, target, cardinality := .manyToOne }

/-- Adds a table with the relationships that its columns declare, in place of any table of its
name. -/
def addTable (s : Schema) (t : Table) : Schema :=
  { tables := (s.tables.filter fun u => !sameName u.name t.name) ++ [t]
    relationships := (declaredRelationships t).foldl insertRelationship s.relationships
    functions := s.functions }

/-- Adds a function. -/
def addFunction (s : Schema) (f : SchemaFunction) : Schema :=
  { s with functions := s.functions ++ [f] }

/-- What a name says before `_id`, if it ends so. -/
def keyStem? (name : String) : Option String :=
  let n := Name.normalize name
  if Name.endsIn n "_id" && n != "_id" then some (Name.dropEnd n 3) else none

/-- The relationship that the name of a column suggests: to the key of the table that the name
speaks of, unless it is the column's own table. -/
def suggested? (s : Schema) (t : Table) (c : Column) : Option Relationship := do
  let stem ← keyStem? c.name
  let target ← s.findTable? stem
  if sameName target.name t.name then none
  else
    let key ← target.primaryKey?
    return { source := ⟨t.name, c.name⟩, target := ⟨target.name, key.name⟩,
             cardinality := .manyToOne }

/-- The relationships that the names of all columns suggest. -/
def suggestedRelationships (s : Schema) : List Relationship :=
  s.tables.flatMap fun t => t.columns.filterMap (s.suggested? t)

/-- Adds the relationships that the names of columns suggest. -/
def inferRelationships (s : Schema) : Schema :=
  { s with relationships := s.suggestedRelationships.foldl insertRelationship s.relationships }

/-- How many relationships the names of columns add. -/
def inferredCount (s : Schema) : Nat :=
  s.inferRelationships.relationships.length - s.relationships.length

/-- The relationships between two tables, in either direction. -/
def relationshipsBetween (s : Schema) (a b : String) : List Relationship :=
  s.relationships.filter fun r =>
    (sameName r.source.table a && sameName r.target.table b) ||
      (sameName r.source.table b && sameName r.target.table a)

/-- The columns on which two tables are joined directly: that of `a`, then that of `b`. -/
def joinColumns? (s : Schema) (a b : String) : Option (String × String) :=
  s.relationships.findSome? fun r =>
    if sameName r.source.table a && sameName r.target.table b then
      some (r.source.column, r.target.column)
    else if sameName r.target.table a && sameName r.source.table b then
      some (r.target.column, r.source.column)
    else none

end Schema

end AskSql
