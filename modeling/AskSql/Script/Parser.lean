import AskSql.Script.Token

/-!
# Parsing tokens

A parser takes tokens from the front of a row, or fails and takes none.  Keywords are words
without marks, in any case.  Lists have a parser for their members and go on as long as tokens
are left.
-/

namespace AskSql.Script

/-- Takes tokens from the front of a row. -/
abbrev Parser := StateT (List Token) Option

namespace Parser

/-- The tokens that are left. -/
def rest : Parser (List Token) := get

/-- The next token, which is taken. -/
def token : Parser Token := do
  match ← rest with
  | t :: ts =>
    set ts
    return t
  | [] => failure

/-- The next token is the keyword. -/
def isKeyword (k : String) : Token → Bool
  | .word w none => Text.sameFold w k
  | _ => false

/-- The next tokens are the keywords, in this order; nothing is taken. -/
def peeks (ks : List String) : Parser Bool := do
  let ts ← rest
  return ks.length ≤ ts.length && (ks.zip ts).all fun (k, t) => isKeyword k t

/-- Takes the keywords if they come next. -/
def keywords (ks : List String) : Parser Bool := do
  if ← peeks ks then
    modify fun ts => ts.drop ks.length
    return true
  else return false

/-- Takes the keyword if it comes next. -/
def keyword (k : String) : Parser Bool := keywords [k]

/-- Takes one of the keywords if it comes next. -/
def keywordOf (ks : List String) : Parser (Option String) := do
  match ← rest with
  | t :: ts =>
    match ks.find? fun k => isKeyword k t with
    | some k =>
      set ts
      return some k
    | none => return none
  | [] => return none

/-- Takes the keywords, which have to come next. -/
def expect (ks : List String) : Parser Unit := do
  if ← keywords ks then return () else failure

/-- The next token is the sign; it is not taken. -/
def peeksSign (s : String) : Parser Bool := do
  return (← rest).head? == some (.sign s)

/-- Takes the sign if it comes next. -/
def sign (s : String) : Parser Bool := do
  if ← peeksSign s then
    modify List.tail
    return true
  else return false

/-- Takes the sign, which has to come next. -/
def expectSign (s : String) : Parser Unit := do
  if ← sign s then return () else failure

/-- What a parser takes, if it does not fail. -/
def attempt {α : Type} (p : Parser α) : Parser (Option α) :=
  (some <$> p) <|> pure none

/-- At least one member with the separator between them, at most `n` more. -/
def separatedUpTo {α : Type} (separator : String) (p : Parser α) : Nat → Parser (List α)
  | 0 => do return [← p]
  | n + 1 => do
    let x ← p
    if ← sign separator then return x :: (← separatedUpTo separator p n) else return [x]

/-- At least one member with commas between them. -/
def commaSeparated {α : Type} (p : Parser α) : Parser (List α) := do
  separatedUpTo "," p (← rest).length

/-- Members as long as the parser has some, at most `n`. -/
def manyUpTo {α : Type} (p : Parser (Option α)) : Nat → Parser (List α)
  | 0 => return []
  | n + 1 => do
    match ← p with
    | some x => return x :: (← manyUpTo p n)
    | none => return []

/-- Members as long as the parser has some; a member takes a token at least. -/
def many {α : Type} (p : Parser (Option α)) : Parser (List α) := do
  manyUpTo p (← rest).length

/-- Something in brackets. -/
def bracketed {α : Type} (p : Parser α) : Parser α := do
  expectSign "("
  let x ← p
  expectSign ")"
  return x

/-- A name: a word with or without marks, or a text. -/
def name : Parser String := do
  match ← token with
  | .word w _ => return w
  | .string s => return s
  | _ => failure

/-- The last part of a name whose parts have points between them. -/
def qualifiedName : Parser String := do
  let parts ← separatedUpTo "." name (← rest).length
  return parts.getLast?.getD ""

/-- Names in brackets. -/
def names : Parser (List String) :=
  bracketed (commaSeparated name)

/-- Names in brackets, if there is a bracket. -/
def namesIfAny : Parser (List String) := do
  if ← peeksSign "(" then names else return []

/-- A whole number. -/
def wholeNumber : Parser Unit := do
  match ← token with
  | .number s => if s.toList.all Text.isAsciiDigit then return () else failure
  | _ => failure

/-- A text between apostrophes. -/
def string : Parser Unit := do
  match ← token with
  | .string _ => return ()
  | _ => failure

/-- Runs the parser on all of a row of tokens, from its front. -/
def takeFrom? {α : Type} (p : Parser α) (ts : List Token) : Option (α × List Token) :=
  p.run ts

end Parser

end AskSql.Script
