import AskSql.Json.Writer

/-!
# Documents over several lines

Each item and member stands on a line of its own, two blanks further in than what holds it.
Arrays and objects without any stand on one line.
-/

namespace AskSql.Json

/-- The start of a line at a depth. -/
def newLine (depth : Nat) : List Char :=
  '\n' :: List.replicate (2 * depth) ' '

mutual

/-- The document as characters, at a depth. -/
def prettyChars (depth : Nat) : Json → List Char
  | array (item :: items) =>
    '[' :: prettyItems (depth + 1) (item :: items) ++ newLine depth ++ [']']
  | object (member :: members) =>
    '\x7b' :: prettyMembers (depth + 1) (member :: members) ++ newLine depth ++ ['\x7d']
  | j => j.chars

/-- Items, each on its line. -/
def prettyItems (depth : Nat) : List Json → List Char
  | [] => []
  | [j] => newLine depth ++ prettyChars depth j
  | j :: js => newLine depth ++ prettyChars depth j ++ ',' :: prettyItems depth js

/-- Members, each on its line. -/
def prettyMembers (depth : Nat) : List (String × Json) → List Char
  | [] => []
  | [(name, j)] => newLine depth ++ quote name ++ ':' :: ' ' :: prettyChars depth j
  | (name, j) :: ms =>
    newLine depth ++ quote name ++ ':' :: ' ' :: prettyChars depth j ++
      ',' :: prettyMembers depth ms

end

/-- The document as text over several lines. -/
def pretty (j : Json) : String :=
  String.ofList (prettyChars 0 j)

end AskSql.Json
