import AskSql.Text.Blank

/-!
# Types of columns

The types that a column of a schema may have, the type names of scripts that stand for them, and
how the type of a column is widened when samples of its values disagree.
-/

namespace AskSql

/-- The type of a column. -/
inductive ColumnType where
  | integer | float | decimal | text | boolean | date | timestamp | unknown
  deriving DecidableEq, Repr

namespace ColumnType

/-- Type names of scripts, in small letters. -/
def typeNames : List (ColumnType × List String) :=
  [(integer, ["int", "integer", "int2", "int4", "int8", "bigint", "smallint", "tinyint",
      "mediumint", "serial", "bigserial"]),
    (float, ["float", "float4", "float8", "double", "real", "number"]),
    (decimal, ["decimal", "numeric", "money"]),
    (boolean, ["bool", "boolean", "bit"]),
    (date, ["date"]),
    (timestamp, ["timestamp", "timestamptz", "datetime", "time"]),
    (text, ["text", "varchar", "char", "character", "nvarchar", "string", "uuid", "json", "jsonb",
      "clob"])]

/-- The type that a type name stands for.  What follows a bracket or a space plays no part. -/
def ofTypeName (name : String) : ColumnType :=
  let key := Text.lower (Text.trim name)
  let base := String.ofList (key.toList.takeWhile fun c => c != '(' && c != ' ')
  ((typeNames.find? fun entry => entry.2.contains base).map Prod.fst).getD unknown

/-- Values of the type can be added up. -/
def isNumeric : ColumnType → Bool
  | integer | float | decimal => true
  | _ => false

/-- Values of the type are points in time. -/
def isTemporal : ColumnType → Bool
  | date | timestamp => true
  | _ => false

/-- The estimated size of a value in bytes. -/
def width : ColumnType → Nat
  | integer | float | timestamp => 8
  | decimal => 16
  | boolean => 1
  | date => 4
  | text => 32
  | unknown => 16

/-- The type of a column that held values of one type and then one of another. -/
def merge (current observed : ColumnType) : ColumnType :=
  if current = unknown then observed
  else if current = observed then current
  else match current, observed with
    | integer, float | float, integer => float
    | date, timestamp | timestamp, date => timestamp
    | _, _ => text

/-- The types by their names in documents. -/
def keywords : List (String × ColumnType) :=
  [("integer", integer), ("float", float), ("decimal", decimal), ("text", text),
    ("boolean", boolean), ("date", date), ("timestamp", timestamp), ("unknown", unknown)]

/-- The name of a type in documents. -/
def keyword : ColumnType → String
  | integer => "integer"
  | float => "float"
  | decimal => "decimal"
  | text => "text"
  | boolean => "boolean"
  | date => "date"
  | timestamp => "timestamp"
  | unknown => "unknown"

end ColumnType

end AskSql
