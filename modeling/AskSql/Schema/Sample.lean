import AskSql.Csv
import AskSql.Json.Decode
import AskSql.Schema.Relation
import AskSql.Failure
import AskSql.Text.Numeral
import AskSql.Text.Pattern

/-!
# Tables from samples

Where a schema is not declared it is taken from data: rows as objects, or records of separated
values under a line of names.  The type of a column is the one that its values have in common, and
a column takes null values if a value is missing in the sample.  At most `sampleSize` rows are
looked at; all of them are counted.
-/

namespace AskSql.Sample

open Text

/-- The number of rows that are looked at. -/
def sampleSize : Nat := 100

/-- A day, or a day with a time and an offset from universal time. -/
def pointInTime : Pattern :=
  let digit := Pattern.one isDecimalDigit
  let two := digit.times 2
  let char (c : Char) := Pattern.one (· == c)
  let seconds := Pattern.ofSeq [char ':', two, (Pattern.seq (char '.') Pattern.digits).optional]
  let offset := Pattern.ofSeq [Pattern.oneOf "+-", two, (char ':').optional, two]
  let clock := Pattern.ofSeq [Pattern.oneOf "T ", two, char ':', two, seconds.optional,
    (Pattern.alt (char 'Z') offset).optional]
  Pattern.ofSeq [digit.times 4, char '-', two, char '-', two, clock.optional]

/-- The type of a value that is written as text. -/
def textType (s : String) : ColumnType :=
  if (int64? s).isSome then .integer
  else if (real? s).isSome then .float
  else if sameFold s "true" || sameFold s "false" then .boolean
  else if pointInTime.matchesAll s then (if 10 < s.utf8ByteSize then .timestamp else .date)
  else .text

/-- The type of a value in a document; null has none. -/
def valueType? : Json → Option ColumnType
  | .null => none
  | .bool _ => some .boolean
  | .number n =>
    match n.value? with
    | some (.whole _) => some .integer
    | _ => some .float
  | .text s => some (textType s)
  | .array _ | .object _ => some .text

/-- A table of a document that is no list of objects. -/
def notObjects (table : String) : Failure :=
  .malformedIn "json" s!"rows for '{table}' must be JSON objects"

/-- Takes note of a value in a column, which is added at the end where it is new. -/
def observe (name : String) (observed : Option ColumnType) : List Column → List Column
  | [] => [{ name, type := observed.getD .unknown, nullable := observed.isNone }]
  | c :: cs =>
    if c.name == name then
      match observed with
      | some t => { c with type := c.type.merge t } :: cs
      | none => { c with nullable := true } :: cs
    else c :: observe name observed cs

/-- Takes note of the members of a row. -/
def observeRow (columns : List Column) (members : List (String × Json)) : List Column :=
  members.foldl (fun cs m => observe m.1 (valueType? m.2) cs) columns

/-- A column named `id` is the key. -/
def markKey (c : Column) : Column :=
  if sameFold c.name "id" then { c with primaryKey := true, indexed := true } else c

/-- The table of some rows, with a column for every name in the order in which they come up. -/
def tableOfRows (name : String) (rows : List Json) : Except Failure Table := do
  let sampled ← (rows.take sampleSize).mapM fun
    | .object members => .ok members
    | _ => .error (notObjects name)
  let columns := sampled.foldl observeRow []
  if columns.isEmpty then throw (.malformedIn "json" s!"no rows to infer '{name}' from")
  return { name, columns := columns.map markKey, rowCount := some rows.length }

/-- What was observed of a column of records: its type so far, and whether a value was missing. -/
abbrev Observed := Option ColumnType × Bool

/-- Takes note of a field. -/
def observeField (o : Observed) (value : String) : Observed :=
  if isBlankText value then (o.1, true)
  else
    let t := textType (trim value)
    (some ((o.1.map fun current => current.merge t).getD t), o.2)

/-- Takes note of the fields of a record; fields without a column are passed over, and columns
without a field stay as they are. -/
def observeRecord : List Observed → List String → List Observed
  | o :: os, field :: fields => observeField o field :: observeRecord os fields
  | os, _ => os

/-- The column of a name in the header, unless the name is blank. -/
def columnOf? (noRows : Bool) (header : String) (o : Observed) : Option Column :=
  let name := trim header
  if name.isEmpty then none
  else
    let c : Column := { name, type := o.1.getD .text, nullable := o.2 || noRows }
    some (if sameFold name "id" then c.asPrimaryKey else c)

/-- The table of a text of separated values whose first record names the columns. -/
def tableOfRecords (name text : String) : Except Failure Table := do
  let header :: rows := Csv.records text
    | throw (.malformedIn "csv" "CSV has no header row")
  if header.all isBlankText then throw (.malformedIn "csv" "CSV has no header row")
  let start : List Observed := header.map fun _ => (none, false)
  let observed := (rows.take sampleSize).foldl observeRecord start
  let columns := (header.zip observed).filterMap fun (h, o) => columnOf? rows.isEmpty h o
  return { name, columns, rowCount := some rows.length }

end AskSql.Sample
