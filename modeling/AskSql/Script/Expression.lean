import AskSql.Script.TypeName

/-!
# Expressions of scripts

Values, names, calls and operators.  Of an expression it is kept whether it is nothing but a name;
everything else is only checked.  An operator takes on its right side what binds more tightly than
itself.  Expressions may hold queries and the other way round, so the parsers here are given the
parsers for what is nested one level deeper.
-/

namespace AskSql.Script

open AskSql.Script.Parser

/-- What is kept of an expression: the name, if it is nothing but a name. -/
abbrev Shape := Option String

/-- How tightly operators bind. -/
structure Binding where
  or : Nat := 5
  and : Nat := 10
  not : Nat := 15
  is : Nat := 17
  like : Nat := 19
  comparison : Nat := 20
  sum : Nat := 30
  product : Nat := 40
  zone : Nat := 41
  tight : Nat := 50

/-- How tightly the operators of scripts bind. -/
def binding : Binding := {}

/-- Signs between two operands, with how tightly they bind. -/
def signBindings : List (String × Nat) :=
  let compare := ["=", "==", "<", "<=", "<>", "!=", ">", ">=", "<=>", "~", "~*", "!~", "!~*",
    "~~", "~~*", "!~~", "!~~*"]
  compare.map (·, binding.comparison) ++
    [("|", 21), ("^", 22), ("<<", 22), (">>", 22), ("&", 23)] ++
    ["+", "-"].map (·, binding.sum) ++ ["*", "/", "%", "||"].map (·, binding.product) ++
    ["->", "->>"].map (·, binding.tight)

/-- Words that stand for a value by themselves. -/
def valueWords : List String :=
  ["TRUE", "FALSE", "NULL", "CURRENT_CATALOG", "CURRENT_USER", "SESSION_USER", "USER"]

/-- Words that stand for a point in time, with brackets or without. -/
def clockWords : List String :=
  ["CURRENT_TIMESTAMP", "CURRENT_TIME", "CURRENT_DATE", "LOCALTIME", "LOCALTIMESTAMP"]

/-- Words that tell the parts of a time. -/
def timeParts : List String :=
  ["YEAR", "MONTH", "WEEK", "DAY", "DATE", "HOUR", "MINUTE", "SECOND", "CENTURY", "DECADE", "DOW",
    "DOY", "EPOCH", "ISODOW", "ISOYEAR", "JULIAN", "MICROSECOND", "MICROSECONDS", "MILLENIUM",
    "MILLENNIUM", "MILLISECOND", "MILLISECONDS", "NANOSECOND", "NANOSECONDS", "QUARTER",
    "TIMEZONE", "TIMEZONE_HOUR", "TIMEZONE_MINUTE"]

section

variable (expr : Parser Shape) (query : Parser Unit)

/-- Expressions with commas between them. -/
def expressions : Parser Unit := do
  let _ ← commaSeparated expr

/-- A key of an order. -/
def orderKey : Parser Shape := do
  let shape ← expr
  let _ ← keywordOf ["ASC", "DESC"]
  if ← keyword "NULLS" then
    if (← keywordOf ["FIRST", "LAST"]).isNone then failure
  return shape

/-- The keys of an order, if there is one. -/
def orderIfAny : Parser Unit := do
  if ← keywords ["ORDER", "BY"] then
    let _ ← commaSeparated (orderKey expr)

/-- A star, by itself or behind the name of a table, or an expression. -/
def starOrExpression : Parser Unit := do
  if ← sign "*" then return ()
  let star : Parser Unit := do
    let _ ← name
    expectSign "."
    let _ ← many do
      match ← rest with
      | .word .. :: .sign "." :: ts =>
        set ts
        return some ()
      | _ => return none
    expectSign "*"
  if (← attempt star).isSome then return ()
  let _ ← expr

/-- An argument of a call, which may have a name. -/
def callArgument : Parser Unit := do
  let named : Parser Unit := do
    let _ ← name
    if (← sign "=>") || (← sign ":=") then return () else failure
  let _ ← attempt named
  starOrExpression expr

/-- One end of the frame of a window. -/
def frameEnd : Parser Unit := do
  if ← keywords ["CURRENT", "ROW"] then return ()
  if !(← keyword "UNBOUNDED") then
    let _ ← expr
  if (← keywordOf ["PRECEDING", "FOLLOWING"]).isNone then failure

/-- A window: its parts, its order and its frame. -/
def window : Parser Unit := do
  bracketed do
    if ← keywords ["PARTITION", "BY"] then expressions expr
    orderIfAny expr
    if (← keywordOf ["ROWS", "RANGE", "GROUPS"]).isSome then
      if ← keyword "BETWEEN" then
        frameEnd expr
        expect ["AND"]
        frameEnd expr
      else frameEnd expr

/-- What follows the name of a function. -/
def call : Parser Unit := do
  expectSign "("
  let _ ← keywordOf ["DISTINCT", "ALL"]
  if !(← sign ")") then
    let _ ← commaSeparated (callArgument expr)
    orderIfAny expr
    expectSign ")"
  if ← keywords ["FILTER"] then
    bracketed do
      expect ["WHERE"]
      let _ ← expr
  if ← keyword "OVER" then
    if ← peeksSign "(" then window expr
    else
      let _ ← name

/-- The branches of a choice between values. -/
def caseBranches : Parser Unit := do
  if !(← peeks ["WHEN"]) then
    let _ ← expr
  let branch : Parser (Option Unit) := do
    if ← keyword "WHEN" then
      let _ ← expr
      expect ["THEN"]
      let _ ← expr
      return some ()
    else return none
  if (← many branch).isEmpty then failure
  if ← keyword "ELSE" then
    let _ ← expr
  expect ["END"]

/-- A value taken for another type. -/
def castBody : Parser Unit := do
  bracketed do
    let _ ← expr
    expect ["AS"]
    let _ ← typeName

/-- A span of time. -/
def intervalBody (operand : Parser Shape) : Parser Unit := do
  let _ ← operand
  if (← keywordOf timeParts).isSome then
    let _ ← sizes 2
    if ← keyword "TO" then
      if (← keywordOf timeParts).isNone then failure
      let _ ← sizes 1

/-- A literal in front of which a type name stands. -/
def typedLiteral : Parser Unit := do
  match ← rest with
  | .word w none :: _ =>
    if (keywordType? w).isSome && !Text.sameFold w "INTERVAL" then
      let _ ← typeName
      match ← token with
      | .string _ | .literal => return ()
      | _ => failure
    else failure
  | _ => failure

/-- A name with points, or a call of a function of such a name. -/
def nameOrCall (first : String) : Parser Shape := do
  let more ← many do
    if ← sign "." then return some (← name) else return none
  if ← peeksSign "(" then
    call expr
    return none
  else return (if more.isEmpty then some first else none)

/-- What starts with a word; `operand` takes what binds more tightly than a number. -/
def wordExpression (operand : Nat → Parser Shape) (w : String) : Parser Shape := do
  let among (ks : List String) := ks.any (Text.sameFold w)
  if among valueWords then return none
  else if among clockWords then
    if ← peeksSign "(" then call expr
    return none
  else if among ["CASE"] then
    caseBranches expr
    return none
  else if among ["CAST", "TRY_CAST", "SAFE_CAST"] then
    castBody expr
    return none
  else if among ["EXISTS"] then
    bracketed query
    return none
  else if among ["EXTRACT"] then
    bracketed do
      if (← keywordOf timeParts).isNone then failure
      expect ["FROM"]
      let _ ← expr
    return none
  else if among ["SUBSTRING"] then
    bracketed do
      let _ ← expr
      if (← keyword "FROM") || (← sign ",") then
        let _ ← expr
      if (← keyword "FOR") || (← sign ",") then
        let _ ← expr
    return none
  else if among ["TRIM"] then
    bracketed do
      let _ ← keywordOf ["BOTH", "LEADING", "TRAILING"]
      let _ ← expr
      if ← keyword "FROM" then
        let _ ← expr
    return none
  else if among ["INTERVAL"] then
    intervalBody (operand binding.is)
    return none
  else if among ["NOT"] then
    let _ ← operand binding.not
    return none
  else if among ["ARRAY"] && (← peeksSign "[") then
    expectSign "["
    if !(← sign "]") then
      expressions expr
      expectSign "]"
    return none
  else nameOrCall expr w

/-- What an expression may start with. -/
def prefixExpression (operand : Nat → Parser Shape) : Parser Shape := do
  if (← attempt typedLiteral).isSome then return none
  let shape ← match ← token with
    | .word w none => wordExpression expr query operand w
    | .word w (some _) => nameOrCall expr w
    | .number _ | .string _ | .literal => return none
    | .sign "-" | .sign "+" => do
      let _ ← operand binding.product
      pure none
    | .sign "(" => do
      if (← peeks ["SELECT"]) || (← peeks ["WITH"]) then query else expressions expr
      expectSign ")"
      pure none
    | .sign "[" => do
      expressions expr
      expectSign "]"
      pure none
    | _ => failure
  if ← keyword "COLLATE" then
    let _ ← qualifiedName
    return none
  return shape

/-- Values or a query in brackets. -/
def membership : Parser Unit := do
  bracketed do
    if (← peeks ["SELECT"]) || (← peeks ["WITH"]) then query else expressions expr

/-- How tightly the operator that comes next binds, zero where none comes. -/
def nextBinding : Parser Nat := do
  let any (kss : List (List String)) : Parser Bool := do
    return (← kss.mapM peeks).any id
  if ← peeks ["OR"] then return binding.or
  if ← peeks ["AND"] then return binding.and
  if ← peeks ["XOR"] then return 24
  if ← peeks ["IS"] then return binding.is
  if ← any [["NOT", "IN"], ["NOT", "BETWEEN"], ["IN"], ["BETWEEN"]] then
    return binding.comparison
  if ← any [["NOT", "LIKE"], ["NOT", "ILIKE"], ["NOT", "SIMILAR"], ["NOT", "REGEXP"],
      ["NOT", "RLIKE"], ["LIKE"], ["ILIKE"], ["SIMILAR"], ["REGEXP"], ["RLIKE"]] then
    return binding.like
  if ← peeks ["AT", "TIME", "ZONE"] then return binding.zone
  match (← rest).head? with
  | some (.sign s) =>
    if s == "::" || s == "[" then return binding.tight
    else return (signBindings.lookup s).getD 0
  | _ => return 0

/-- An operator that comes next, with what stands on its right. -/
def infixExpression (operand : Nat → Parser Shape) (level : Nat) : Parser Unit := do
  if (← keywordOf ["OR", "AND", "XOR"]).isSome then
    let _ ← operand level
  else if ← keyword "IS" then
    let _ ← keyword "NOT"
    if ← keywords ["DISTINCT", "FROM"] then
      let _ ← expr
    else if (← keywordOf ["NULL", "TRUE", "FALSE", "UNKNOWN"]).isNone then failure
  else if ← keywords ["AT", "TIME", "ZONE"] then
    string
  else if ← sign "::" then
    let _ ← typeName
  else if ← sign "[" then
    let _ ← expr
    expectSign "]"
  else
    let _ ← keyword "NOT"
    if ← keyword "IN" then membership expr query
    else if ← keyword "BETWEEN" then
      let _ ← operand binding.comparison
      expect ["AND"]
      let _ ← operand binding.comparison
    else if (← keyword "LIKE") || (← keyword "ILIKE") || (← keywords ["SIMILAR", "TO"]) ||
        (← keyword "REGEXP") || (← keyword "RLIKE") then
      let _ ← operand binding.like
      if ← keyword "ESCAPE" then string
    else
      match ← token with
      | .sign _ =>
        if (← keywordOf ["ANY", "ALL", "SOME"]).isSome then
          membership expr query
        else
          let _ ← operand level
      | _ => failure

/-- An expression whose operators all bind more tightly than `level`, of at most `n` operators
one inside the other. -/
def operandUpTo : Nat → Nat → Parser Shape
  | 0, _ => failure
  | n + 1, level => do
    let first ← prefixExpression expr query (operandUpTo n)
    let more : Parser (Option Unit) := do
      let next ← nextBinding
      if level < next then
        infixExpression expr query (operandUpTo n) next
        return some ()
      else return none
    let operators ← many more
    return (if operators.isEmpty then first else none)

/-- An expression, where `expr` and `query` take what is nested in it. -/
def expression : Parser Shape := do
  operandUpTo expr query ((← rest).length + 1) 0

end

end AskSql.Script
