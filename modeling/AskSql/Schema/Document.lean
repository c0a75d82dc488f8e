import AskSql.Json.Decode
import AskSql.Json.Reader
import AskSql.Json.Writer
import AskSql.Schema.Relation

/-!
# Schemas as documents

The written form of a schema as a JSON document, and its reading.  What a reader may leave out has
a value of its own: columns take null values unless they say otherwise, and there are no keys, no
indexes, no synonyms, no relationships and no functions.
-/

namespace AskSql

open Json (Decoder field fieldIfSome fieldIfAny)

namespace ColumnType

/-- A type as a document. -/
def toJson (t : ColumnType) : Json :=
  .text t.keyword

/-- The type that a document is. -/
def ofJson? : Decoder ColumnType :=
  Json.choice? keywords

end ColumnType

namespace Pointer

/-- A pointer as a document. -/
def toJson (p : Pointer) : Json :=
  .object (field "table" (.text p.table) ++ field "column" (.text p.column))

/-- The pointer that a document is. -/
def ofJson? : Decoder Pointer :=
  Json.record? ["table", "column"] fun o parts => do
    let [table, column] := parts | none
    return ⟨← Json.required? Json.string? o table, ← Json.required? Json.string? o column⟩

end Pointer

namespace Column

/-- A column as a document. -/
def toJson (c : Column) : Json :=
  .object (field "name" (.text c.name) ++ field "type" c.type.toJson ++
    field "nullable" (.bool c.nullable) ++ field "primary_key" (.bool c.primaryKey) ++
    field "indexed" (.bool c.indexed) ++ fieldIfSome "references" Pointer.toJson c.references ++
    fieldIfAny "synonyms" Json.text c.synonyms)

/-- The names of the parts of a column. -/
def partNames : List String :=
  ["name", "type", "nullable", "primary_key", "indexed", "references", "synonyms"]

/-- The column that a document is. -/
def ofJson? : Decoder Column :=
  Json.record? partNames fun o parts => do
    let [name, type, nullable, primaryKey, indexed, references, synonyms] := parts | none
    return {
      name := ← Json.required? Json.string? o name
      type := ← Json.required? ColumnType.ofJson? o type
      nullable := ← Json.optional? Json.bool? true o nullable
      primaryKey := ← Json.optional? Json.bool? false o primaryKey
      indexed := ← Json.optional? Json.bool? false o indexed
      references := ← Json.optional? (Json.nullable? Pointer.ofJson?) none o references
      synonyms := ← Json.optional? (Json.list? Json.string?) [] o synonyms }

end Column

namespace Table

/-- A table as a document. -/
def toJson (t : Table) : Json :=
  .object (field "name" (.text t.name) ++ field "columns" (Json.list Column.toJson t.columns) ++
    fieldIfSome "row_count" Json.nat t.rowCount ++ fieldIfAny "synonyms" Json.text t.synonyms)

/-- The table that a document is. -/
def ofJson? : Decoder Table :=
  Json.record? ["name", "columns", "row_count", "synonyms"] fun o parts => do
    let [name, columns, rowCount, synonyms] := parts | none
    return {
      name := ← Json.required? Json.string? o name
      columns := ← Json.required? (Json.list? Column.ofJson?) o columns
      rowCount := ← Json.optional? (Json.nullable? (Json.nat? 64)) none o rowCount
      synonyms := ← Json.optional? (Json.list? Json.string?) [] o synonyms }

end Table

namespace FunctionKind

/-- The kinds of functions by their names in documents. -/
def keywords : List (String × FunctionKind) :=
  [("scalar", scalar), ("aggregate", aggregate), ("window", window)]

/-- The name of a kind in documents. -/
def keyword : FunctionKind → String
  | scalar => "scalar"
  | aggregate => "aggregate"
  | window => "window"

end FunctionKind

namespace SchemaFunction

/-- A function as a document. -/
def toJson (f : SchemaFunction) : Json :=
  .object (field "name" (.text f.name) ++ field "kind" (.text f.kind.keyword) ++
    field "params" (Json.list Json.text f.params) ++ field "return_type" f.returnType.toJson)

/-- The function that a document is. -/
def ofJson? : Decoder SchemaFunction :=
  Json.record? ["name", "kind", "params", "return_type"] fun o parts => do
    let [name, kind, params, returnType] := parts | none
    return {
      name := ← Json.required? Json.string? o name
      kind := ← Json.required? (Json.choice? FunctionKind.keywords) o kind
      params := ← Json.optional? (Json.list? Json.string?) [] o params
      returnType := ← Json.required? ColumnType.ofJson? o returnType }

end SchemaFunction

namespace Cardinality

/-- The cardinalities by their names in documents. -/
def keywords : List (String × Cardinality) :=
  [("one_to_one", oneToOne), ("many_to_one", manyToOne), ("one_to_many", oneToMany),
    ("many_to_many", manyToMany)]

/-- The name of a cardinality in documents. -/
def keyword : Cardinality → String
  | oneToOne => "one_to_one"
  | manyToOne => "many_to_one"
  | oneToMany => "one_to_many"
  | manyToMany => "many_to_many"

/-- The cardinality that a document is. -/
def ofJson? : Decoder Cardinality :=
  Json.choice? keywords

end Cardinality

namespace Relationship

/-- A relationship as a document. -/
def toJson (r : Relationship) : Json :=
  .object (field "from" r.source.toJson ++ field "to" r.target.toJson ++
    field "cardinality" (.text r.cardinality.keyword))

/-- The relationship that a document is. -/
def ofJson? : Decoder Relationship :=
  Json.record? ["from", "to", "cardinality"] fun o parts => do
    let [source, target, cardinality] := parts | none
    return {
      source := ← Json.required? Pointer.ofJson? o source
      target := ← Json.required? Pointer.ofJson? o target
      cardinality := ← Json.required? Cardinality.ofJson? o cardinality }

end Relationship

namespace Schema

/-- A schema as a document. -/
def toJson (s : Schema) : Json :=
  .object (field "tables" (Json.list Table.toJson s.tables) ++
    field "relationships" (Json.list Relationship.toJson s.relationships) ++
    field "functions" (Json.list SchemaFunction.toJson s.functions))

/-- The schema that a document is. -/
def ofJson? : Decoder Schema :=
  Json.record? ["tables", "relationships", "functions"] fun o parts => do
    let [tables, relationships, functions] := parts | none
    return {
      tables := ← Json.required? (Json.list? Table.ofJson?) o tables
      relationships := ← Json.optional? (Json.list? Relationship.ofJson?) [] o relationships
      functions := ← Json.optional? (Json.list? SchemaFunction.ofJson?) [] o functions }

end Schema

end AskSql
