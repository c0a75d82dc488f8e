import AskSql.Question.Token
import AskSql.Text.Lowercase
import AskSql.Text.Sorted

/-!
# Entities of a question

An entity is a token with what it means: a part of the schema, a value, or a word of the language
of queries.
-/

namespace AskSql

/-- What a token means. -/
inductive EntityKind where
  | table | column | function | number | string | date | timeRange | boolean | null | operator
  | aggregation
  deriving DecidableEq, Repr

/-- The kinds that stand for values. -/
def EntityKind.isValue : EntityKind → Bool
  | number | string | date | timeRange | boolean | null => true
  | _ => false

/-- A token with its meaning. -/
structure Entity where
  text : String
  kind : EntityKind
  /-- How sure the meaning is. -/
  confidence : Float
  position : Nat
  length : Nat
  /-- The name in the schema, the aggregate or the comparison that is meant. -/
  resolved : Option String := none
  /-- The table of a column. -/
  table : Option String := none
  /-- The column may belong to several tables. -/
  ambiguous : Bool := false
  /-- What else is known, by names in their order. -/
  notes : List (String × String) := []
  deriving Repr

namespace Entity

/-- The token with a meaning, and where this was found. -/
def ofToken (t : Token) (kind : EntityKind) (confidence : Float) (found : String) : Entity where
  text := t.text
  kind := kind
  confidence := confidence
  position := t.position
  length := t.length
  notes := [("source", found)]

/-- The entity under a resolved name. -/
def named (e : Entity) (name : String) : Entity :=
  { e with resolved := some name }

/-- The entity with a note, in place of one of the same name. -/
def withNote (e : Entity) (name value : String) : Entity :=
  { e with notes := Text.upsert name (fun _ => value) e.notes }

/-- The note of a name. -/
def note? (e : Entity) (name : String) : Option String :=
  e.notes.lookup name

/-- The resolved name, or the text in small letters. -/
def name (e : Entity) : String :=
  e.resolved.getD (Text.lowercase e.text)

end Entity

end AskSql
