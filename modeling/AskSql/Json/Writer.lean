import AskSql.Json.Basic

/-!
# Writing documents

`Json.render` writes a document without blanks between its parts.  In a text the quotation mark,
the backslash and the control characters are escaped, the usual ones by a letter and the others by
their code point; everything else stands as it is.
-/

namespace AskSql.Json

/-- A digit of base sixteen. -/
def hexDigit (n : Nat) : Char :=
  if n < 10 then Char.ofNat (48 + n) else Char.ofNat (87 + n)

/-- A character inside a text. -/
def escape (c : Char) : List Char :=
  if c == '"' then ['\\', '"']
  else if c == '\\' then ['\\', '\\']
  else if c.toNat == 8 then ['\\', 'b']
  else if c.toNat == 12 then ['\\', 'f']
  else if c == '\n' then ['\\', 'n']
  else if c == '\r' then ['\\', 'r']
  else if c == '\t' then ['\\', 't']
  else if c.toNat < 0x20 then
    ['\\', 'u', '0', '0', hexDigit (c.toNat / 16), hexDigit (c.toNat % 16)]
  else [c]

/-- A text between quotation marks. -/
def quote (s : String) : List Char :=
  '"' :: s.toList.flatMap escape ++ ['"']

mutual

/-- The document as characters. -/
def chars : Json → List Char
  | null => ['n', 'u', 'l', 'l']
  | bool true => ['t', 'r', 'u', 'e']
  | bool false => ['f', 'a', 'l', 's', 'e']
  | number n => n.chars
  | text s => quote s
  | array items => '[' :: itemChars items ++ [']']
  | object members => '{' :: memberChars members ++ ['}']

/-- Items with a comma between them. -/
def itemChars : List Json → List Char
  | [] => []
  | [j] => j.chars
  | j :: js => j.chars ++ ',' :: itemChars js

/-- Members with a comma between them. -/
def memberChars : List (String × Json) → List Char
  | [] => []
  | [(name, j)] => quote name ++ ':' :: j.chars
  | (name, j) :: ms => quote name ++ ':' :: j.chars ++ ',' :: memberChars ms

end

/-- The document as text. -/
def render (j : Json) : String :=
  String.ofList j.chars

end AskSql.Json
