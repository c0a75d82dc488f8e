import AskSql.Query.Basic
import AskSql.Schema.Basic

/-!
# Columns that a query needs

The columns that each table has to supply, how many others need not be read, and which columns an
index would help with.
-/

namespace AskSql

/-- Tables with some of their columns, in small letters and in order. -/
abbrev ColumnSets := List (String × List String)

/-- What an index on a column is good for. -/
inductive IndexUse where
  | filter | join | order
  deriving DecidableEq, Repr

/-- A column that is filtered, joined or sorted by. -/
structure IndexHint where
  table : String
  column : String
  usage : IndexUse
  /-- There is an index. -/
  indexed : Bool
  deriving DecidableEq, Repr

/-- Adds a column to those of its table. -/
def ColumnSets.add (sets : ColumnSets) (r : Reference) : ColumnSets :=
  Text.upsert r.tableKey
    (fun columns => Text.insertWord (Text.lower r.column) (columns.getD [])) sets

/-- The use of an index for a reference in a clause. -/
def Clause.indexUse? : Clause → Option IndexUse
  | filter => some .filter
  | join => some .join
  | orderBy => some .order
  | _ => none

namespace Query

/-- The columns that each table has to supply; a star stands for all of them. -/
def requiredColumns (q : Query) : ColumnSets :=
  q.references.foldl (fun sets (_, r) => sets.add r) []

/-- The number of columns of a table that need not be read. -/
def skippedColumns (s : Schema) (table : String) (columns : List String) : Nat :=
  if columns.contains "*" then 0
  else ((s.table? table).map fun t => t.columns.length - columns.length).getD 0

/-- A note on the columns that need not be read, if there are any. -/
def pruningNote? (s : Schema) (required : ColumnSets) : Option String :=
  let skipped := total (required.map fun (table, columns) => skippedColumns s table columns)
  if skipped == 0 then none
  else some (toString skipped ++ " columns not read across " ++ toString required.length ++
    " tables")

/-- The hint is on this use of the column of a reference. -/
def sameHint (usage : IndexUse) (r : Reference) (h : IndexHint) : Bool :=
  h.usage == usage && Text.sameFold h.table r.table && Text.sameFold h.column r.column

/-- Adds a hint for a reference, unless there is one for the same use of the column. -/
def addHint (s : Schema) (hints : List IndexHint) (clause : Clause) (r : Reference) :
    List IndexHint :=
  match clause.indexUse?, s.column? r.table r.column with
  | some usage, some column =>
    if r.isStar || hints.any (sameHint usage r) then hints
    else hints ++ [⟨r.table, r.column, usage, column.hasIndex⟩]
  | _, _ => hints

/-- The columns that are filtered, joined or sorted by, as far as the schema has them. -/
def indexHints (s : Schema) (q : Query) : List IndexHint :=
  q.references.foldl (fun hints (clause, r) => addHint s hints clause r) []

end Query

end AskSql
