import AskSql.Script.Expression

/-!
# Queries of scripts

Queries are checked and nothing is kept of them.  They may hold expressions, and expressions may
hold queries; `nested` builds the parsers for both level by level, down to a limit of depth.
-/

namespace AskSql.Script

open AskSql.Script.Parser

/-- Words that are not taken for the name of a result column without `AS`. -/
def notColumnNames : List String :=
  ["WITH", "EXPLAIN", "ANALYZE", "SELECT", "WHERE", "GROUP", "SORT", "HAVING", "ORDER", "TOP",
    "LATERAL", "VIEW", "LIMIT", "OFFSET", "FETCH", "UNION", "EXCEPT", "INTERSECT", "CLUSTER",
    "DISTRIBUTE", "RETURNING", "FROM", "INTO", "END"]

/-- Words that are not taken for the name of a table without `AS`. -/
def notTableNames : List String :=
  ["WITH", "EXPLAIN", "ANALYZE", "SELECT", "WHERE", "GROUP", "SORT", "HAVING", "ORDER", "PIVOT",
    "UNPIVOT", "TOP", "LATERAL", "VIEW", "LIMIT", "OFFSET", "FETCH", "UNION", "EXCEPT",
    "INTERSECT", "ON", "JOIN", "INNER", "CROSS", "FULL", "LEFT", "RIGHT", "NATURAL", "USING",
    "CLUSTER", "DISTRIBUTE", "GLOBAL", "ANTI", "SEMI", "RETURNING", "OUTER", "SET", "QUALIFY",
    "WINDOW", "END", "FOR", "PARTITION"]

/-- Another name, with `AS` in front or without; without it the reserved words are no names. -/
def otherName (reserved : List String) : Parser Bool := do
  if ← keyword "AS" then
    let _ ← name
    return true
  match (← rest).head? with
  | some (.word w mark) =>
    if mark.isSome || !reserved.any (Text.sameFold w) then
      let _ ← token
      return true
    else return false
  | some (.string _) =>
    let _ ← token
    return true
  | _ => return false

/-- Another name of a table, with names of its columns. -/
def otherTableName : Parser Unit := do
  if ← otherName notTableNames then
    let _ ← namesIfAny

section

variable (expr : Parser Shape) (query : Parser Unit)

/-- A column of the result. -/
def selectItem : Parser Unit := do
  let before ← rest
  starOrExpression expr
  let taken := before.take (before.length - (← rest).length)
  if taken.getLast? != some (.sign "*") then
    let _ ← otherName notColumnNames

/-- A table that is read: a query, a call or a name. -/
def tableFactor (joined : Parser Unit) : Parser Unit := do
  let _ ← keyword "LATERAL"
  if ← peeksSign "(" then
    let derived : Parser Unit := bracketed query
    if (← attempt derived).isNone then bracketed joined
    otherTableName
  else
    let _ ← qualifiedName
    if ← sign "(" then
      if !(← sign ")") then
        let _ ← commaSeparated (callArgument expr)
        expectSign ")"
    otherTableName

/-- The kind of a join, if one comes next, and whether it has a condition. -/
def joinKind : Parser (Option Bool) := do
  if ← keywords ["CROSS", "JOIN"] then return some false
  let natural ← keyword "NATURAL"
  let kind ← keywordOf ["INNER", "LEFT", "RIGHT", "FULL"]
  match kind with
  | some "INNER" | none => pure ()
  | _ =>
    let _ ← keyword "OUTER"
  if ← keyword "JOIN" then return some (!natural)
  if natural || kind.isSome then failure
  return none

/-- The condition of a join, if there is one. -/
def joinCondition : Parser Unit := do
  if ← keyword "ON" then
    let _ ← expr
  else if ← keyword "USING" then
    let _ ← names

/-- A table with the tables that are joined to it, brackets nested at most `n` deep. -/
def joinedTables : Nat → Parser Unit
  | 0 => failure
  | n + 1 => do
    tableFactor expr query (joinedTables n)
    let join : Parser (Option Unit) := do
      match ← joinKind with
      | some conditional =>
        tableFactor expr query (joinedTables n)
        if conditional then joinCondition expr
        return some ()
      | none => return none
    let _ ← many join

/-- A row of values. -/
def valueRow : Parser Unit := do
  let _ ← keyword "ROW"
  bracketed (expressions expr)

/-- A selection from tables. -/
def selection : Parser Unit := do
  expect ["SELECT"]
  if ← keyword "DISTINCT" then
    if ← keyword "ON" then bracketed (expressions expr)
  else
    let _ ← keyword "ALL"
  let _ ← commaSeparated (selectItem expr)
  if ← keyword "INTO" then
    let _ ← keywordOf ["TEMPORARY", "TEMP"]
    let _ ← keyword "UNLOGGED"
    let _ ← keyword "TABLE"
    let _ ← qualifiedName
  if ← keyword "FROM" then
    let _ ← commaSeparated (joinedTables expr query 16)
  if ← keyword "WHERE" then
    let _ ← expr
  if ← keywords ["GROUP", "BY"] then
    if !(← keyword "ALL") then expressions expr
  if ← keyword "HAVING" then
    let _ ← expr
  if ← keyword "QUALIFY" then
    let _ ← expr

/-- A selection, values, or a query in brackets. -/
def simpleQuery : Parser Unit := do
  if ← peeks ["SELECT"] then selection expr query
  else if ← keyword "VALUES" then
    let _ ← commaSeparated (valueRow expr)
  else if ← peeksSign "(" then bracketed query
  else if ← keyword "TABLE" then
    let _ ← qualifiedName
  else failure

/-- A query that others refer to by name. -/
def namedQuery : Parser Unit := do
  let _ ← name
  let _ ← namesIfAny
  expect ["AS"]
  let _ ← keyword "NOT"
  let _ ← keyword "MATERIALIZED"
  bracketed query

/-- How many rows of the result are wanted. -/
def rowLimits : Parser Unit := do
  let limit : Parser (Option Unit) := do
    if ← keyword "LIMIT" then
      if !(← keyword "ALL") then
        let _ ← expr
        if ← sign "," then
          let _ ← expr
      return some ()
    else if ← keyword "OFFSET" then
      let _ ← expr
      let _ ← keywordOf ["ROW", "ROWS"]
      return some ()
    else return none
  let _ ← manyUpTo limit 2
  if ← keyword "FETCH" then
    if (← keywordOf ["FIRST", "NEXT"]).isNone then failure
    if (← keywordOf ["ROW", "ROWS"]).isNone then
      let _ ← expr
      let _ ← keyword "PERCENT"
      if (← keywordOf ["ROW", "ROWS"]).isNone then failure
    if !(← keyword "ONLY") then expect ["WITH", "TIES"]

/-- A query, where `expr` and `query` take what is nested in it. -/
def fullQuery : Parser Unit := do
  if ← keyword "WITH" then
    let _ ← keyword "RECURSIVE"
    let _ ← commaSeparated (namedQuery query)
  simpleQuery expr query
  let more : Parser (Option Unit) := do
    if (← keywordOf ["UNION", "EXCEPT", "INTERSECT"]).isSome then
      let _ ← keywordOf ["ALL", "DISTINCT"]
      simpleQuery expr query
      return some ()
    else return none
  let _ ← many more
  orderIfAny expr
  rowLimits expr

end

/-- The parsers for expressions and for queries that are nested at most so deep. -/
def nested : Nat → Parser Shape × Parser Unit
  | 0 => (failure, failure)
  | n + 1 =>
    let (expr, query) := nested n
    (expression expr query, fullQuery expr query)

/-- How deep expressions and queries of a statement may be nested. -/
def nestingLimit : Nat := 49

/-- An expression of a statement. -/
def statementExpression : Parser Shape := (nested nestingLimit).1

/-- A query of a statement. -/
def statementQuery : Parser Unit := (nested nestingLimit).2

end AskSql.Script
