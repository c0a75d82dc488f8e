import AskSql.Query.Document
import AskSql.Query.Scope
import AskSql.Schema.Document

/-!
# Queries from a service

A service is given the schema and the question and replies with a query as a JSON document.  What
it replies is checked: the document must be a query, its references must be in scope, and its
tables must be tables of the schema.
-/

namespace AskSql

/-- A service takes a prompt and replies, or says why it fails. -/
abbrev Service := String → Except String String

namespace Service

/-- The prompt for a question. -/
def prompt (s : Schema) (default : Option String) (text : String) : String :=
  "Translate the question into a SelectQueryIR JSON document.\nSchema: " ++ s.toJson.render ++
    "\nQuestion: " ++ text ++ "\n" ++
    (default.map fun table => "Default table: " ++ table ++ "\n").getD ""

/-- What follows some characters at the start of a text. -/
def after? : List Char → List Char → Option (List Char)
  | [], cs => some cs
  | _ :: _, [] => none
  | d :: ds, c :: cs => if d == c then after? ds cs else none

/-- What precedes some characters at the end of a text. -/
def before? (ending cs : List Char) : Option (List Char) :=
  (after? ending.reverse cs.reverse).map List.reverse

/-- Three backquotes. -/
def fence : List Char :=
  ['\x60', '\x60', '\x60']

/-- The reply without blanks around it and without a fence, if it stands inside of one. -/
def unfenced (reply : String) : String :=
  let cs := Text.trimChars reply.toList
  let opened := after? (fence ++ "json".toList) cs <|> after? fence cs
  String.ofList (((opened.bind (before? fence)).map Text.trimChars).getD cs)

/-- The service failed. -/
def failed (reason : String) : Failure :=
  .withContext "delegating strategy" (.ofChain ["generation service call failed", reason])

/-- The reply is no query. -/
def malformedReply : Failure :=
  .withContext "delegating strategy"
    (.ofChain ["generation service returned malformed IR JSON"])

/-- The query in the reply reads a table that the schema does not have. -/
def unknownTable (table : String) : Failure :=
  .invalidReference s!"generated IR names unknown table {table}" (some table) (some "*")

/-- The query that the service replies to a prompt. -/
def request (service : Service) (prompt : String) : Except Failure Query :=
  match service prompt with
  | .error reason => .error (failed reason)
  | .ok reply =>
    match Query.ofText? (unfenced reply) with
    | some q => .ok q
    | none => .error malformedReply

/-- The first table of a query that the schema does not have. -/
def unknownTable? (s : Schema) (q : Query) : Option String :=
  q.tables.find? fun table => (s.table? table).isNone

/-- The query of a service for a question, all references of which are in scope. -/
def query (service : Service) (s : Schema) (default : Option String) (text : String) :
    Except Failure Query := do
  let q ← service.request (prompt s default text)
  q.validate
  match unknownTable? s q with
  | some table => throw (unknownTable table)
  | none => return q

end Service

end AskSql
