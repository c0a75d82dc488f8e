import AskSql.Interpreter.Basic

/-!
# Execution

A statement may be handed on to a database.  What the database gives back, rows or a failure,
comes beside the interpretation.
-/

namespace AskSql

/-- Rows of values under the names of their columns. -/
structure ResultSet (α : Type) where
  columns : List String
  rows : List (List α)

namespace ResultSet

variable {α : Type}

/-- The place of the first column of a name. -/
def columnIndex? (r : ResultSet α) (name : String) : Option Nat :=
  r.columns.findIdx? (· == name)

/-- The values of a column; rows that are too short have none. -/
def columnValues? (r : ResultSet α) (name : String) : Option (List α) :=
  (r.columnIndex? name).map fun i => r.rows.filterMap (·[i]?)

end ResultSet

/-- Why a statement was not executed. -/
inductive ExecutionFailure where
  /-- The database refused the statement. -/
  | statement (reason : String) (code : Option String)
  /-- The database could not be reached. -/
  | connection (reason : String)
  /-- The parameters do not fit the statement. -/
  | binding (reason : String)
  deriving DecidableEq, Repr

/-- The failure in words. -/
def ExecutionFailure.message : ExecutionFailure → String
  | statement reason _ => "statement failed: " ++ reason
  | connection reason => "connection failed: " ++ reason
  | binding reason => "parameter binding failed: " ++ reason

/-- A database takes a statement with the values of its placeholders. -/
abbrev Database (α : Type) :=
  String → List Literal → Except ExecutionFailure (ResultSet α)

/-- Interprets a question and executes the statement. -/
def Interpreter.execute {α : Type} (t : Interpreter) (text : String) (d : Dialect)
    (database : Database α) :
    Except Failure (Interpretation × Except ExecutionFailure (ResultSet α)) × Interpreter :=
  let (result, t) := t.interpret text d
  (result.map fun r => (r, database r.sql r.params), t)

end AskSql
