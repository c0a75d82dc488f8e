import AskSql.Text.Ascii

/-!
# Failures

Everything that can go wrong on the way from a question to a statement, by who can mend it: the
caller who asks, the schema that is given, a query whose references do not resolve, a construct
without a rendering, the settings, or this library itself.
-/

namespace AskSql

/-- Why no answer was given. -/
inductive Failure where
  /-- No table to start from. -/
  | noTable (reason : String) (context : Option String)
  /-- A schema document that describes no schema. -/
  | malformedSchema (reason : String) (format context : Option String)
  /-- A reference to a table or column that is not there. -/
  | invalidReference (reason : String) (table column : Option String)
  /-- Something that this library or a dialect does not provide. -/
  | unsupported (reason : String) (dialect construct : Option String)
  /-- Settings that cannot be read or are out of range. -/
  | config (reason : String) (context : Option String)
  /-- A fault of this library or of a service behind it. -/
  | internal (reason : String) (context : Option String)
  deriving DecidableEq, Repr

namespace Failure

/-- A construct that a dialect has no words for. -/
def unsupportedIn (construct dialect : String) : Failure :=
  .unsupported s!"{construct} has no rendering in the {dialect} dialect" (some dialect)
    (some construct)

/-- A schema document that is malformed in the terms of its format. -/
def malformedIn (format reason : String) : Failure :=
  .malformedSchema reason (some format) none

/-- The words for a document that is no JSON, or not of the shape that is asked for. -/
def unreadableDocument : String :=
  "invalid value: the document does not have the expected form"

/-- The words for a schema script that does not follow the grammar of statements. -/
def unreadableScript : String :=
  "sql parser error: the script does not follow the grammar"

/-- Notes what was being done; a failure that has no place for it stays as it is. -/
def withContext (context : String) : Failure → Failure
  | noTable reason _ => noTable reason (some context)
  | malformedSchema reason format _ => malformedSchema reason format (some context)
  | config reason _ => config reason (some context)
  | internal reason _ => internal reason (some context)
  | other => other

/-- Caused by the question or the schema that the caller gave. -/
def isInputFailure : Failure → Bool
  | noTable .. | malformedSchema .. => true
  | _ => false

/-- The reason alone. -/
def reason : Failure → String
  | noTable r _ | malformedSchema r _ _ | invalidReference r _ _ | unsupported r _ _
  | config r _ | internal r _ => r

/-- The kind of failure, in words. -/
def heading : Failure → String
  | noTable .. => "No table error"
  | malformedSchema .. => "Malformed schema"
  | invalidReference .. => "Invalid reference"
  | unsupported .. => "Unsupported feature"
  | config .. => "Configuration error"
  | internal .. => "Internal error"

/-- The failure in words. -/
def message (f : Failure) : String :=
  f.heading ++ ": " ++ f.reason

/-- A chain of causes, the outermost first. -/
def ofChain (causes : List String) : Failure :=
  .internal (String.intercalate ": " causes) none

/-- A failure of the file system. -/
def ofFileSystem (reason : String) : Failure :=
  .config reason (some "io")

end Failure

end AskSql
