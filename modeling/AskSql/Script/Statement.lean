import AskSql.Script.Select

/-!
# Statements of scripts

Of a script it is kept which tables it creates, with their columns and constraints, and on which
columns it creates indexes.  Other statements are checked and passed over.  Semicolons end
statements; a statement that is not ended has to be the last one.
-/

namespace AskSql.Script

open AskSql.Script.Parser

/-- What a column definition says about its column. -/
inductive ColumnOption where
  | notNull
  | primaryKey
  | unique
  | references (table : String) (columns : List String)
  /-- Anything that the schema does not depend on. -/
  | other
  deriving DecidableEq, Repr

/-- The definition of a column. -/
structure ColumnDefinition where
  name : String
  /-- The beginning of the type name. -/
  typeName : String
  options : List ColumnOption
  deriving DecidableEq, Repr

/-- What a table definition says about several columns. -/
inductive TableConstraint where
  | primaryKey (columns : List String)
  | unique (columns : List String)
  | foreignKey (columns : List String) (table : String) (referred : List String)
  /-- Anything that the schema does not depend on. -/
  | other
  deriving DecidableEq, Repr

/-- The definition of a table. -/
structure TableDefinition where
  name : String
  columns : List ColumnDefinition
  constraints : List TableConstraint
  deriving DecidableEq, Repr

/-- A statement of a script. -/
inductive Statement where
  | createTable (table : TableDefinition)
  /-- An index with those of its keys that are columns. -/
  | createIndex (table : String) (columns : List String)
  | other
  deriving DecidableEq, Repr

/-- What happens to a row when the row that it refers to goes. -/
def referentialAction : Parser Unit := do
  if (← keywordOf ["RESTRICT", "CASCADE"]).isSome then return ()
  if (← keywords ["SET", "NULL"]) || (← keywords ["NO", "ACTION"]) ||
      (← keywords ["SET", "DEFAULT"]) then return ()
  failure

/-- What happens when the row that a row refers to goes or changes. -/
def referentialActions : Parser Unit := do
  let action : Parser (Option Unit) := do
    if (← keywords ["ON", "DELETE"]) || (← keywords ["ON", "UPDATE"]) then
      referentialAction
      return some ()
    else return none
  let _ ← manyUpTo action 2

/-- The body of a computed column. -/
def computedBody : Parser Unit := do
  bracketed do
    let _ ← statementExpression
  let _ ← keywordOf ["STORED", "VIRTUAL"]

/-- The options of a sequence. -/
def sequenceOption : Parser (Option Unit) := do
  if (← keywordOf ["INCREMENT", "START"]).isSome then
    let _ ← keywordOf ["BY", "WITH"]
    let _ ← statementExpression
    return some ()
  else if (← keywordOf ["MINVALUE", "MAXVALUE", "CACHE"]).isSome then
    let _ ← statementExpression
    return some ()
  else if ← keyword "NO" then
    if (← keywordOf ["MINVALUE", "MAXVALUE", "CYCLE"]).isNone then failure
    return some ()
  else if ← keyword "CYCLE" then return some ()
  else return none

/-- How a column is computed. -/
def generated : Parser Unit := do
  let sequence : Parser Unit := do
    expect ["AS", "IDENTITY"]
    if ← peeksSign "(" then
      let _ ← bracketed (many sequenceOption)
  if ← keywords ["ALWAYS", "AS", "IDENTITY"] then
    if ← peeksSign "(" then
      let _ ← bracketed (many sequenceOption)
  else if ← keywords ["BY", "DEFAULT"] then sequence
  else
    expect ["ALWAYS", "AS"]
    computedBody

/-- An option of a column, if one comes next. -/
def columnOption : Parser (Option ColumnOption) := do
  if ← keywords ["CHARACTER", "SET"] then
    let _ ← qualifiedName
    return some .other
  else if ← keywords ["NOT", "NULL"] then return some .notNull
  else if ← keyword "COMMENT" then
    string
    return some .other
  else if ← keyword "NULL" then return some .other
  else if ← keyword "DEFAULT" then
    let _ ← statementExpression
    return some .other
  else if ← keywords ["PRIMARY", "KEY"] then return some .primaryKey
  else if ← keyword "UNIQUE" then return some .unique
  else if ← keyword "REFERENCES" then
    let table ← qualifiedName
    let columns ← namesIfAny
    referentialActions
    return some (.references table columns)
  else if ← keyword "CHECK" then
    bracketed do
      let _ ← statementExpression
    return some .other
  else if (← keywordOf ["AUTO_INCREMENT", "AUTOINCREMENT"]).isSome then return some .other
  else if ← keywords ["ON", "UPDATE"] then
    let _ ← statementExpression
    return some .other
  else if ← keyword "GENERATED" then
    generated
    return some .other
  else if ← keyword "AS" then
    computedBody
    return some .other
  else return none

/-- An option of a column that may have a name, or its order of letters. -/
def columnDetail : Parser (Option ColumnOption) := do
  if ← keyword "CONSTRAINT" then
    let _ ← name
    match ← columnOption with
    | some o => return some o
    | none => failure
  else
    match ← columnOption with
    | some o => return some o
    | none =>
      if ← keyword "COLLATE" then
        let _ ← qualifiedName
        return some .other
      else return none

/-- The definition of a column, which starts with a word. -/
def columnDefinition : Parser ColumnDefinition := do
  match ← token with
  | .word name _ =>
    let typeName ← typeName
    if ← keyword "COLLATE" then
      let _ ← qualifiedName
    return { name, typeName, options := ← many columnDetail }
  | _ => failure

/-- Takes the next token if it is a word that is used as a name. -/
def nameIfAny : Parser Unit := do
  let _ ← attempt name

/-- A constraint of a table, if one comes next. -/
def tableConstraint : Parser (Option TableConstraint) := do
  let named ← keyword "CONSTRAINT"
  if named then
    let _ ← name
  match ← keywordOf ["PRIMARY", "UNIQUE", "FOREIGN", "CHECK", "INDEX", "KEY", "FULLTEXT",
      "SPATIAL"] with
  | some "PRIMARY" =>
    let _ ← keyword "KEY"
    nameIfAny
    return some (.primaryKey (← names))
  | some "UNIQUE" =>
    let _ ← keyword "KEY"
    nameIfAny
    return some (.unique (← names))
  | some "FOREIGN" =>
    expect ["KEY"]
    let columns ← names
    expect ["REFERENCES"]
    let table ← qualifiedName
    let referred ← names
    referentialActions
    return some (.foreignKey columns table referred)
  | some "CHECK" =>
    bracketed do
      let _ ← statementExpression
    return some .other
  | some "INDEX" | some "KEY" =>
    if !(← peeks ["USING"]) then nameIfAny
    if ← keyword "USING" then
      if (← keywordOf ["BTREE", "HASH"]).isNone then failure
    let _ ← names
    return some .other
  | some _ =>
    if named then failure
    let _ ← keywordOf ["INDEX", "KEY"]
    nameIfAny
    let _ ← names
    return some .other
  | none => if named then failure else return none

/-- A column or a constraint in the body of a table. -/
def bodyPart : Parser (ColumnDefinition ⊕ TableConstraint) := do
  match ← tableConstraint with
  | some c => return .inr c
  | none => return .inl (← columnDefinition)

/-- The parts of the body of a table up to its bracket, at most `n`.  A comma may stand behind the
last part. -/
def bodyParts : Nat → Parser (List (ColumnDefinition ⊕ TableConstraint))
  | 0 => failure
  | n + 1 => do
    let part ← bodyPart
    let comma ← sign ","
    if ← sign ")" then return [part]
    else if comma then return part :: (← bodyParts n)
    else failure

/-- The body of a table: its columns and constraints, none where there is no bracket. -/
def tableBody : Parser (List ColumnDefinition × List TableConstraint) := do
  if !(← sign "(") then return ([], [])
  if ← sign ")" then return ([], [])
  let parts ← bodyParts ((← rest).length + 1)
  return (parts.filterMap Sum.getLeft?, parts.filterMap Sum.getRight?)

/-- An option with a value. -/
def assignment : Parser Unit := do
  let _ ← name
  expectSign "="
  match ← token with
  | .word .. | .number _ | .string _ | .literal => return ()
  | _ => failure

/-- Options in brackets behind a keyword, if it comes next. -/
def optionsAfter (k : String) : Parser Unit := do
  if ← keyword k then
    let _ ← bracketed (commaSeparated assignment)

/-- What may follow the body of a table. -/
def tableOptions : Parser Unit := do
  let _ ← keywords ["WITHOUT", "ROWID"]
  optionsAfter "WITH"
  optionsAfter "TBLPROPERTIES"
  if ← keyword "ENGINE" then
    expectSign "="
    match ← token with
    | .word .. => pure ()
    | _ => failure
  if ← keyword "COMMENT" then
    let _ ← sign "="
    string
  if ← keyword "AUTO_INCREMENT" then
    let _ ← sign "="
    wholeNumber
  if ← keywords ["ORDER", "BY"] then
    if ← sign "(" then
      if !(← sign ")") then
        let _ ← commaSeparated name
        expectSign ")"
    else
      let _ ← name
  if ← keyword "AS" then statementQuery
  if ← keywords ["DEFAULT", "CHARSET"] then
    expectSign "="
    let _ ← name
  if ← keyword "COLLATE" then
    expectSign "="
    let _ ← name
  if ← keywords ["ON", "COMMIT"] then
    if !((← keywords ["DELETE", "ROWS"]) || (← keywords ["PRESERVE", "ROWS"]) ||
        (← keyword "DROP")) then failure
  let _ ← keyword "STRICT"

/-- The definition of a table after the keywords in front. -/
def createTable : Parser Statement := do
  let _ ← keywords ["IF", "NOT", "EXISTS"]
  let name ← qualifiedName
  if (← keywordOf ["LIKE", "ILIKE", "CLONE"]).isSome then
    let _ ← qualifiedName
  let (columns, constraints) ← tableBody
  tableOptions
  return .createTable { name, columns, constraints }

/-- The definition of an index after the keywords in front. -/
def createIndex : Parser Statement := do
  let _ ← keyword "CONCURRENTLY"
  let conditional ← keywords ["IF", "NOT", "EXISTS"]
  if conditional || !(← keyword "ON") then
    let _ ← qualifiedName
    expect ["ON"]
  let table ← qualifiedName
  if ← keyword "USING" then
    let _ ← name
  let keys ← bracketed (commaSeparated (orderKey statementExpression))
  if ← keyword "INCLUDE" then
    let _ ← names
  if ← keyword "NULLS" then
    let _ ← keyword "NOT"
    expect ["DISTINCT"]
  if ← keyword "WHERE" then
    let _ ← statementExpression
  return .createIndex table (keys.filterMap id)

/-- The definition of a view after the keywords in front. -/
def createView : Parser Statement := do
  let _ ← keywords ["IF", "NOT", "EXISTS"]
  let _ ← qualifiedName
  let _ ← namesIfAny
  optionsAfter "WITH"
  expect ["AS"]
  statementQuery
  let _ ← keywords ["WITH", "NO", "SCHEMA", "BINDING"]
  return .other

/-- A definition. -/
def create : Parser Statement := do
  let replace ← keywords ["OR", "REPLACE"]
  let _ ← keywordOf ["LOCAL"]
  let _ ← keywordOf ["GLOBAL"]
  let _ ← keywordOf ["TRANSIENT"]
  let _ ← keywordOf ["TEMP", "TEMPORARY"]
  if ← keyword "TABLE" then createTable
  else if (← keywords ["MATERIALIZED", "VIEW"]) || (← keyword "VIEW") then createView
  else if replace then failure
  else if (← keyword "INDEX") || (← keywords ["UNIQUE", "INDEX"]) then createIndex
  else if ← keyword "SCHEMA" then
    let _ ← keywords ["IF", "NOT", "EXISTS"]
    let _ ← qualifiedName
    return .other
  else if ← keyword "DATABASE" then
    let _ ← keywords ["IF", "NOT", "EXISTS"]
    let _ ← qualifiedName
    return .other
  else failure

/-- The removal of something. -/
def drop : Parser Statement := do
  let _ ← keyword "TEMPORARY"
  if (← keywordOf ["TABLE", "VIEW", "INDEX", "SCHEMA", "SEQUENCE"]).isNone then failure
  let _ ← keywords ["IF", "EXISTS"]
  let _ ← commaSeparated qualifiedName
  let cascade ← keyword "CASCADE"
  let restrict ← keyword "RESTRICT"
  let _ ← keyword "PURGE"
  if cascade && restrict then failure
  return .other

/-- New values for columns. -/
def assignments : Parser Unit := do
  let one : Parser Unit := do
    let _ ← qualifiedName
    expectSign "="
    let _ ← statementExpression
  let _ ← commaSeparated one

/-- What a statement that changes rows gives back. -/
def returning : Parser Unit := do
  if ← keyword "RETURNING" then
    let _ ← commaSeparated (selectItem statementExpression)

/-- New rows. -/
def insertRows : Parser Statement := do
  let _ ← keyword "IGNORE"
  let _ ← keywordOf ["INTO", "OVERWRITE"]
  let _ ← keyword "LOCAL"
  let _ ← keyword "TABLE"
  let _ ← qualifiedName
  let columns : Parser (List String) := names
  let _ ← attempt columns
  if !(← keywords ["DEFAULT", "VALUES"]) then statementQuery
  if ← keyword "ON" then
    if ← keyword "CONFLICT" then
      let _ ← namesIfAny
      expect ["DO"]
      if !(← keyword "NOTHING") then
        expect ["UPDATE", "SET"]
        assignments
        if ← keyword "WHERE" then
          let _ ← statementExpression
    else
      expect ["DUPLICATE", "KEY", "UPDATE"]
      assignments
  returning
  return .other

/-- Changed rows. -/
def updateRows : Parser Statement := do
  joinedTables statementExpression statementQuery 16
  expect ["SET"]
  assignments
  if ← keyword "FROM" then joinedTables statementExpression statementQuery 16
  if ← keyword "WHERE" then
    let _ ← statementExpression
  returning
  return .other

/-- Removed rows. -/
def deleteRows : Parser Statement := do
  expect ["FROM"]
  let _ ← commaSeparated (joinedTables statementExpression statementQuery 16)
  if ← keyword "WHERE" then
    let _ ← statementExpression
  returning
  return .other

/-- The start or the end of a transaction. -/
def transaction : Parser Statement := do
  let _ ← keywordOf ["TRANSACTION", "WORK"]
  return .other

/-- A statement. -/
def statement : Parser Statement := do
  if (← peeks ["SELECT"]) || (← peeks ["WITH"]) || (← peeks ["VALUES"]) || (← peeksSign "(") then
    statementQuery
    return .other
  match ← keywordOf ["CREATE", "DROP", "INSERT", "UPDATE", "DELETE", "BEGIN", "COMMIT",
      "ROLLBACK"] with
  | some "CREATE" => create
  | some "DROP" => drop
  | some "INSERT" => insertRows
  | some "UPDATE" => updateRows
  | some "DELETE" => deleteRows
  | some _ => transaction
  | none => failure

/-- The statements of some tokens, each of which takes one at least. -/
def statementsUpTo : Nat → Parser (List Statement)
  | 0 => failure
  | n + 1 => do
    let _ ← many do
      if ← sign ";" then return some () else return none
    if (← rest).isEmpty then return []
    let s ← statement
    if (← rest).isEmpty || (← peeks ["END"]) then return [s]
    if ← peeksSign ";" then return s :: (← statementsUpTo n) else failure

/-- The statements of a script; none where it does not follow the grammar. -/
def statements? (script : String) : Option (List Statement) := do
  let ts ← tokens? script
  (takeFrom? (statementsUpTo (ts.length + 1)) ts).map Prod.fst

end AskSql.Script
