import AskSql.Schema.Document
import AskSql.Schema.Sample
import AskSql.Script.Statement

/-!
# Reading schemas

A schema is read from a script of definitions, from a JSON document or from separated values.  A
document is a list of rows, an object with a list of tables, or an object with a member for each
table.  Where no format is given it is found out from the beginning of the text.  A schema without
relationships gets those that the names of its columns suggest.
-/

namespace AskSql

/-- The form of a schema text. -/
inductive SchemaFormat where
  | auto | script | json | csv | naturalLanguage
  deriving DecidableEq, Repr

namespace SchemaFormat

/-- The name of a format in documents. -/
def keyword : SchemaFormat → String
  | auto => "auto"
  | script => "ddl"
  | json => "json"
  | csv => "csv"
  | naturalLanguage => "natural_language"

/-- The names under which formats are asked for. -/
def names : List (String × SchemaFormat) :=
  [("auto", auto), ("ddl", script), ("sql", script), ("json", json), ("csv", csv),
    ("nl", naturalLanguage), ("text", naturalLanguage), ("natural_language", naturalLanguage)]

/-- The format of a name, whatever its case and the blanks around it. -/
def ofName (s : String) : Except Failure SchemaFormat :=
  let key := Text.lower (Text.trim s)
  match names.lookup key with
  | some f => .ok f
  | none => .error (.config s!"unknown schema format '{key}'" none)

end SchemaFormat

namespace Schema

/-- A failure in the terms of the JSON format. -/
def malformedJson {α : Type} (reason : String) : Except Failure α :=
  .error (.malformedIn "json" reason)

/-! ## Scripts -/

/-- Applies an option of a column definition. -/
def applyOption (c : Column) : Script.ColumnOption → Column
  | .notNull => { c with nullable := false }
  | .primaryKey => c.asPrimaryKey
  | .unique => { c with indexed := true }
  | .references table columns => { c with references := some ⟨table, columns.headD "id"⟩ }
  | .other => c

/-- The column of a definition. -/
def columnOfDefinition (d : Script.ColumnDefinition) : Column :=
  d.options.foldl applyOption { name := d.name, type := .ofTypeName d.typeName }

/-- Changes the column that a constraint names. -/
def changeColumn (role : String) (t : Table) (name : String) (f : Column → Column) :
    Except Failure Table :=
  match updateFirst (fun c => Text.sameFold c.name name) f t.columns with
  | some columns => .ok { t with columns }
  | none => .error (.malformedIn "ddl" s!"{role} on table {t.name}: unknown column {name}")

/-- A column of a key over several columns. -/
def asKeyPart (c : Column) : Column :=
  { c with primaryKey := true, nullable := false, indexed := true }

/-- Applies a constraint to the columns that it names. -/
def applyConstraint (t : Table) : Script.TableConstraint → Except Failure Table
  | .primaryKey columns =>
    columns.foldlM (fun t name => changeColumn "constraint" t name asKeyPart) t
  | .unique columns =>
    columns.foldlM (fun t name => changeColumn "constraint" t name fun c =>
      { c with indexed := true }) t
  | .foreignKey columns table referred =>
    (columns.zipIdx).foldlM (fun t (name, i) => changeColumn "foreign key" t name fun c =>
      { c with references := some ⟨table, (referred[i]?).getD "id"⟩ }) t
  | .other => .ok t

/-- The table of a definition. -/
def tableOfDefinition (d : Script.TableDefinition) : Except Failure Table :=
  if d.columns.isEmpty then
    .error (.malformedIn "ddl" s!"table {d.name} declares no columns")
  else
    d.constraints.foldlM applyConstraint
      { name := d.name, columns := d.columns.map columnOfDefinition }

/-- Adds what a statement defines to a schema and to the indexes that are still to be marked. -/
def applyStatement (acc : Schema × List (String × String)) :
    Script.Statement → Except Failure (Schema × List (String × String))
  | .createTable d => do
    let t ← tableOfDefinition d
    return (acc.1.addTable t, acc.2)
  | .createIndex table columns => .ok (acc.1, acc.2 ++ columns.map fun c => (table, c))
  | .other => .ok acc

/-- The schema of a script.  Indexes on columns that are not there are passed over. -/
def ofScript (script : String) : Except Failure Schema := do
  let some statements := Script.statements? script
    | throw (.malformedIn "ddl" Failure.unreadableScript)
  let (s, indexes) ← statements.foldlM applyStatement ({}, [])
  return indexes.foldl (fun s (table, column) => (s.markIndexed? table column).getD s) s

/-! ## Documents -/

/-- The texts of a list, what is no text left out. -/
def stringList (j : Option Json) : List String :=
  ((j.bind Json.asArray?).getD []).filterMap Json.asString?

/-- A flag of an object. -/
def flag? (name : String) (j : Json) : Option Bool :=
  (j.get? name).bind (Json.bool? .held)

/-- A pointer as table and column with a point between them. -/
def pointerOfText (s : String) : Except Failure Pointer :=
  let table := s.toList.takeWhile (· != '.')
  let column := (s.toList.dropWhile (· != '.')).drop 1
  if table.isEmpty || column.isEmpty then
    malformedJson s!"'{s}' is not a table.column reference"
  else .ok ⟨String.ofList table, String.ofList column⟩

/-- A pointer as an object; the column is `id` where none is named. -/
def pointerOfObject (j : Json) : Except Failure Pointer :=
  match (j.get? "table").bind Json.asString? with
  | some table => .ok ⟨table, ((j.get? "column").bind Json.asString?).getD "id"⟩
  | none => malformedJson "reference object needs a 'table'"

/-- What a column refers to; anything but a text or an object refers to nothing. -/
def referencesOf (j : Option Json) : Except Failure (Option Pointer) :=
  match j with
  | some (.text s) => do return some (← pointerOfText s)
  | some (.object ms) => do return some (← pointerOfObject (.object ms))
  | _ => .ok none

/-- The column that an object describes. -/
def columnOfObject (name : String) (j : Json) : Except Failure Column := do
  let typeName := (j.get? "type").bind Json.asString?
  let c : Column := { name, type := (typeName.map ColumnType.ofTypeName).getD .unknown }
  let c := if flag? "primary_key" j == some true then c.asPrimaryKey else c
  let c := match flag? "nullable" j with
    | some nullable => { c with nullable }
    | none => c
  let c := if flag? "indexed" j == some true then { c with indexed := true } else c
  return { c with
    references := ← referencesOf (j.get? "references")
    synonyms := stringList (j.get? "synonyms") }

/-- The column that an entry of a list describes. -/
def columnOfEntry (table : String) : Json → Except Failure Column
  | .text name => .ok { name, type := .unknown }
  | .object ms =>
    match ((Json.object ms).get? "name").bind Json.asString? with
    | some name => columnOfObject name (.object ms)
    | none => malformedJson s!"column without a name in table '{table}'"
  | _ => malformedJson s!"column entries in table '{table}' must be strings or objects"

/-- The column that a member of an object describes: by the name of its type, or by an object. -/
def columnOfMember (name : String) : Json → Except Failure Column
  | .text typeName => .ok { name, type := .ofTypeName typeName }
  | .object ms => columnOfObject name (.object ms)
  | _ => .ok { name, type := .unknown }

/-- The table whose columns are the members of an object. -/
def tableOfMembers (name : String) (members : List (String × Json)) : Except Failure Table := do
  let columns ← members.mapM fun (column, j) => columnOfMember column j
  if columns.isEmpty then malformedJson s!"table '{name}' has no columns"
  else return { name, columns }

/-- The table that an entry of a list describes. -/
def tableOfEntry (j : Json) : Except Failure Table := do
  let some name := (j.get? "name").bind Json.asString?
    | malformedJson "table entry without a name"
  let t ← match j.get? "columns" with
    | some (.array columns) => do
      pure { name, columns := ← columns.mapM (columnOfEntry name) : Table }
    | some (.object members) => tableOfMembers name members
    | _ => malformedJson s!"table '{name}' has no columns"
  return { t with
    rowCount := (j.get? "row_count").bind Json.asNat?
    synonyms := stringList (j.get? "synonyms") }

/-- An end of a relationship. -/
def endOf (name : String) (j : Json) : Except Failure Pointer :=
  match j.get? name with
  | some (.text s) => pointerOfText s
  | some (.object ms) => pointerOfObject (.object ms)
  | _ => malformedJson s!"relationship missing '{name}'"

/-- The relationship that an entry of a list describes: many rows to one unless it says
otherwise. -/
def relationshipOfEntry (j : Json) : Except Failure Relationship := do
  let cardinality ← match j.get? "cardinality" with
    | some c =>
      match Cardinality.ofJson? (.direct Json.nestingLimit) c with
      | some c => pure c
      | none => malformedJson Failure.unreadableDocument
    | none => pure .manyToOne
  return { source := ← endOf "from" j, target := ← endOf "to" j, cardinality }

/-- The schema of an object with a list of tables. -/
def ofObject (j : Json) : Except Failure Schema := do
  let some tables := (j.get? "tables").bind Json.asArray?
    | malformedJson "'tables' must be an array"
  let s ← tables.foldlM (fun (s : Schema) j => do return s.addTable (← tableOfEntry j)) {}
  let relationships := ((j.get? "relationships").bind Json.asArray?).getD []
  let s ← relationships.foldlM
    (fun (s : Schema) j => do return s.addRelationship (← relationshipOfEntry j)) s
  match j.get? "functions" with
  | none => return s
  | some fs =>
    match Json.list? SchemaFunction.ofJson? (.direct Json.nestingLimit) fs with
    | some fs => return fs.foldl addFunction s
    | none => malformedJson Failure.unreadableDocument

/-- The table that a member of an object describes. -/
def tableOfMember (name : String) : Json → Except Failure Table
  | .array rows => Sample.tableOfRows name rows
  | .object members => tableOfMembers name members
  | _ => malformedJson s!"table '{name}' must map to a column object or an array of rows"

/-- The schema of a document. -/
def ofDocument (text : String) (tableName : Option String) : Except Failure Schema := do
  let some j := (Json.parse? text).bind (Json.Origin.direct Json.nestingLimit).hold
    | malformedJson Failure.unreadableDocument
  match j.settled with
  | .array rows => return addTable {} (← Sample.tableOfRows (tableName.getD "data") rows)
  | .object members =>
    if (members.lookup "tables").isSome then ofObject (.object members)
    else
      members.foldlM (fun (s : Schema) (name, j) => do
        return s.addTable (← tableOfMember name j)) {}
  | _ => malformedJson "expected a JSON object or array at the top level"

/-! ## Texts -/

/-- The first line of a text. -/
def firstLine (cs : List Char) : List Char :=
  cs.takeWhile (· != '\n')

/-- The format that the beginning of a text shows. -/
def sniffFormat (text : String) (tableName : Option String) : Except Failure SchemaFormat :=
  let cs := text.toList.dropWhile Text.isBlank
  if cs.head? == some '\x7b' || cs.head? == some '[' then .ok .json
  else if containsText (Text.lower (String.ofList cs)) "create table" then .ok .script
  else if tableName.isSome && (firstLine cs).contains ',' then .ok .csv
  else .error (.malformedSchema
    "could not detect schema format (expected DDL, JSON, or CSV with a table name)" none none)

/-- The schema of a text in a format. -/
def ofFormat (text : String) (tableName : Option String) :
    SchemaFormat → Except Failure Schema
  | .script => ofScript text
  | .json => ofDocument text tableName
  | .csv =>
    match tableName with
    | some name => do return addTable {} (← Sample.tableOfRecords name text)
    | none => .error (.malformedIn "csv" "CSV schema needs a table name")
  | .naturalLanguage =>
    .error (.unsupported
      "natural-language schema descriptions require an external generation service" none
      (some "natural_language_schema"))
  | .auto => .error (.internal "format sniffing returned Auto" none)

/-- The schema of a text.  Separated values and lists of rows have no name for their table and
take the one that is given. -/
def ofText (text : String) (format : SchemaFormat) (tableName : Option String) :
    Except Failure Schema := do
  let format ← if format = .auto then sniffFormat text tableName else pure format
  let s ← ofFormat text tableName format
  if s.isEmpty then throw (.malformedSchema "schema document defines no tables" none none)
  return if s.relationships.isEmpty then s.inferRelationships else s

/-- The name of a file without its extension, and the extension.  A point in front of the name
starts no extension. -/
def splitFileName (file : String) : String × Option String :=
  let cs := file.toList.reverse
  let extension := cs.takeWhile (· != '.')
  let stem := (cs.drop extension.length).drop 1
  if extension.length == cs.length || stem.isEmpty then (file, none)
  else (String.ofList stem.reverse, some (String.ofList extension.reverse))

/-- The schema of a file by its name and content.  The extension tells the format where none is
given, and separated values take the name of the file for their table. -/
def ofFile (file text : String) (format : SchemaFormat) (tableName : Option String) :
    Except Failure Schema :=
  let (stem, extension) := splitFileName file
  let format := match format, extension with
    | .auto, some "sql" => SchemaFormat.script
    | .auto, some "json" => .json
    | .auto, some "csv" => .csv
    | f, _ => f
  ofText text format (tableName <|> if format = .csv then some stem else none)

end Schema

end AskSql
