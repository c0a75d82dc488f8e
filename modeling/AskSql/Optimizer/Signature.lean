import AskSql.Query.Document
import AskSql.Schema.Basic

/-!
# Signatures of queries

A signature tells queries apart for which the optimizer may come to different results: the text of
the query, and for each of its tables the number of rows and the indexed columns.
-/

namespace AskSql

/-- What the schema tells about a table: the number of rows and the indexed columns. -/
def Table.statistics (t : Table) : String :=
  let rows := match t.rowCount with
    | some n => "Some(" ++ toString n ++ ")"
    | none => "None"
  rows ++ ":" ++
    String.intercalate "," ((t.columns.filter Column.hasIndex).map Column.name)

/-- A table with what the schema tells about it. -/
def Schema.tableSignature (s : Schema) (table : String) : String :=
  "|" ++ Text.lower table ++ "=" ++ ((s.table? table).map Table.statistics).getD ""

/-- The signature of a query. -/
def Query.signature (s : Schema) (q : Query) : String :=
  q.toText ++ String.join (q.tables.map s.tableSignature)

end AskSql
