import AskSql.Script.Parser

/-!
# Type names

The type of a column in a script: a word, sometimes of several parts, with sizes in brackets.
What is kept of it is its beginning, which is all that the type of a column depends on: the first
word with the bracket or space that follows it.
-/

namespace AskSql.Script

open AskSql.Script.Parser

/-- Numbers in brackets, from one to `most`, if there is a bracket. -/
def sizes (most : Nat) : Parser Bool := do
  if ← peeksSign "(" then
    let ns ← bracketed (commaSeparated wholeNumber)
    if ns.length ≤ most then return true else failure
  else return false

/-- A length in characters in brackets, or the largest one, if there is a bracket. -/
def lengthOfText : Parser Bool := do
  if ← peeksSign "(" then
    bracketed do
      if ← keyword "MAX" then return ()
      wholeNumber
      let _ ← keywordOf ["CHARACTERS", "OCTETS"]
    return true
  else return false

/-- Texts in brackets. -/
def texts : Parser Unit := do
  let _ ← bracketed (commaSeparated string)

/-- What may stand in the brackets behind a type of no standard. -/
def modifier : Parser (Option Unit) := do
  match (← rest).head? with
  | some (.word ..) | some (.number _) | some (.string _) | some (.sign ",") =>
    let _ ← token
    return some ()
  | _ => return none

/-- Behind a point in time: whether it knows its time zone. -/
def timeZone : Parser Bool := do
  if ← keyword "WITH" then
    expect ["TIME", "ZONE"]
    return true
  else if ← keyword "WITHOUT" then
    expect ["TIME", "ZONE"]
    return true
  else return false

/-- Types of whole numbers. -/
def integerTypes : List String :=
  ["TINYINT", "INT2", "SMALLINT", "MEDIUMINT", "INT", "INT4", "INT64", "INTEGER", "BIGINT", "INT8"]

/-- Types that stand without sizes. -/
def plainTypes : List String :=
  ["BOOLEAN", "BOOL", "REAL", "FLOAT4", "FLOAT64", "FLOAT8", "UUID", "DATE", "INTERVAL", "JSON",
    "REGCLASS", "TEXT", "BYTEA"]

/-- Types with one size, if any. -/
def sizedTypes : List String :=
  ["FLOAT", "NVARCHAR", "CLOB", "BINARY", "VARBINARY", "BLOB", "BYTES", "DATETIME", "TIMESTAMPTZ",
    "TIMETZ", "STRING"]

/-- Types with up to two sizes. -/
def scaledTypes : List String :=
  ["NUMERIC", "DECIMAL", "DEC", "BIGNUMERIC", "BIGDECIMAL"]

/-- What comes right behind the first word of a type name: a bracket, a space or nothing. -/
def tail (sized spaced : Bool) : String :=
  if sized then "(" else if spaced then " " else ""

/-- What follows the first word of a type that is a keyword, none where it is no keyword. -/
def keywordType? (w : String) : Option (Parser String) :=
  let among (ks : List String) := ks.any (Text.sameFold w)
  if among plainTypes then some (return "")
  else if among sizedTypes then some (return tail (← sizes 1) false)
  else if among scaledTypes then some (return tail (← sizes 2) false)
  else if among integerTypes then some do
    let sized ← sizes 1
    return tail sized (← keyword "UNSIGNED")
  else if among ["DOUBLE"] then some (return tail false (← keyword "PRECISION"))
  else if among ["VARCHAR"] then some (return tail (← lengthOfText) false)
  else if among ["CHARACTER", "CHAR"] then some do
    if ← keyword "VARYING" then
      let _ ← lengthOfText
      return " "
    else if ← keywords ["LARGE", "OBJECT"] then
      let _ ← sizes 1
      return " "
    else return tail (← lengthOfText) false
  else if among ["TIMESTAMP", "TIME"] then some do
    let sized ← sizes 1
    return tail sized (← timeZone)
  else if among ["ENUM", "SET"] then some do
    texts
    return "("
  else none

/-- A type name without the brackets of an array behind it. -/
def elementType : Parser String := do
  match ← rest with
  | .word w mark :: ts =>
    match if mark.isNone then keywordType? w else none with
    | some p =>
      set ts
      return w ++ (← p)
    | none =>
      let parts ← separatedUpTo "." name ts.length
      let spelled := match parts, mark with
        | [w], some m => String.singleton m ++ w ++ String.singleton m
        | parts, _ => String.intercalate "." parts
      if ← sign "(" then
        let _ ← many modifier
        expectSign ")"
        return spelled ++ "("
      else return spelled
  | _ => failure

/-- An array of arrays is written with a pair of brackets for each level. -/
def arrayMark : Parser (Option Unit) := do
  if ← sign "[" then
    expectSign "]"
    return some ()
  else return none

/-- The beginning of a type name. -/
def typeName : Parser String := do
  let t ← if ← keyword "ARRAY" then do
      expectSign "<"
      let t ← elementType
      expectSign ">"
      pure ("ARRAY<" ++ t)
    else elementType
  return t ++ String.join ((← many arrayMark).map fun _ => "[]")

end AskSql.Script
