import AskSql.Text.Blank
import AskSql.Text.Letter

/-!
# Tokens of scripts

A script is cut into words, numbers, literals and signs; blanks and comments only part them.
Comments run to the end of the line or between two signs, which may be nested.  A word between
quotation marks or backquotes is a name whatever it spells, and no keyword.
-/

namespace AskSql.Script

open Text

/-- A token of a script. -/
inductive Token where
  /-- A word; `quoted` where it stood between marks, and then the mark. -/
  | word (text : String) (mark : Option Char)
  | number (text : String)
  /-- A text between apostrophes. -/
  | string (text : String)
  /-- Any other literal: a text with a letter in front, or a placeholder. -/
  | literal
  | sign (text : String)
  deriving DecidableEq, Repr

/-- A character that may start a word. -/
def startsWord (c : Char) : Bool :=
  isAlphabetic c || c == '_' || c == '#' || c == '@'

/-- A character that may go on with a word. -/
def continuesWord (c : Char) : Bool :=
  isAlphabetic c || isAsciiDigit c || c == '@' || c == '$' || c == '#' || c == '_'

/-- Signs of more than one character, the longer ones first. -/
def longSigns : List String :=
  ["!~~*", "->>", "<=>", "!~*", "!~~", "||/", "~~*", "->", "=>", "==", "<=", "<>", "<<", "<@",
    ">=", ">>", "!=", "!~", "!!", "||", "|/", "::", ":=", "~*", "~~", "&&"]

/-- The sign at the start of a text. -/
def signAt (c : Char) (cs : List Char) : String × List Char :=
  match longSigns.find? fun s => s.toList.isPrefixOf (c :: cs) with
  | some s => (s, (c :: cs).drop s.length)
  | none => (String.singleton c, cs)

/-- The text after a comment that ends at the end of the line. -/
def afterLine : List Char → List Char
  | [] => []
  | c :: cs => if c == '\n' then cs else afterLine cs

/-- The text after a comment between two signs, `depth` of which are open besides the first. -/
def afterBlock? (depth : Nat) : List Char → Option (List Char)
  | [] => none
  | '*' :: '/' :: cs =>
    match depth with
    | 0 => some cs
    | depth + 1 => afterBlock? depth cs
  | '/' :: '*' :: cs => afterBlock? (depth + 1) cs
  | _ :: cs => afterBlock? depth cs

/-- What stands before the closing mark, where a mark that is written twice stands for itself, and
what follows. -/
def untilMark? (mark : Char) : List Char → Option (List Char × List Char)
  | [] => none
  | [c] => if c == mark then some ([], []) else none
  | c :: d :: cs =>
    if c == mark then
      if d == mark then (untilMark? mark cs).map fun (body, rest) => (mark :: body, rest)
      else some ([], d :: cs)
    else (untilMark? mark (d :: cs)).map fun (body, rest) => (c :: body, rest)

/-- The text after a literal in which a backslash guards the next character. -/
def afterGuarded? : List Char → Option (List Char)
  | [] => none
  | '\\' :: _ :: cs => afterGuarded? cs
  | '\'' :: '\'' :: cs => afterGuarded? cs
  | '\'' :: cs => some cs
  | _ :: cs => afterGuarded? cs

/-- An exponent at the start of a text, and what follows. -/
def spanExponent (cs : List Char) : List Char × List Char :=
  match cs with
  | e :: rest =>
    if e == 'e' || e == 'E' then
      let (sign, rest) := match rest with
        | '+' :: rest => (['+'], rest)
        | '-' :: rest => (['-'], rest)
        | _ => ([], rest)
      let ds := rest.takeWhile isAsciiDigit
      if ds.isEmpty then ([], cs) else (e :: sign ++ ds, rest.dropWhile isAsciiDigit)
    else ([], cs)
  | [] => ([], cs)

/-- A number at the start of a text, or a point where no digit stands beside it. -/
def numberAt (cs : List Char) : Token × List Char :=
  let whole := cs.takeWhile isAsciiDigit
  let rest := cs.dropWhile isAsciiDigit
  match whole, rest with
  | ['0'], 'x' :: rest => (.literal, rest.dropWhile fun c => c.isAlphanum)
  | _, _ =>
    let (point, rest) := match rest with
      | '.' :: rest => (['.'], rest)
      | _ => ([], rest)
    let places := rest.takeWhile isAsciiDigit
    let rest := rest.dropWhile isAsciiDigit
    if whole.isEmpty && places.isEmpty then (.sign ".", rest)
    else
      let (exponent, rest) := spanExponent rest
      let rest := if rest.head? == some 'L' then rest.drop 1 else rest
      (.number (String.ofList (whole ++ point ++ places ++ exponent)), rest)

/-- What a text starts with: a token or nothing of meaning, and what follows. -/
def next? : List Char → Option (Option Token × List Char)
  | [] => none
  | '-' :: '-' :: cs => some (none, afterLine cs)
  | '/' :: '*' :: cs => (afterBlock? 0 cs).map fun rest => (none, rest)
  | '\'' :: cs => (untilMark? '\'' cs).map fun (s, rest) => (some (.string (String.ofList s)), rest)
  | '"' :: cs =>
    (untilMark? '"' cs).map fun (s, rest) => (some (.word (String.ofList s) (some '"')), rest)
  | '\x60' :: cs =>
    (untilMark? '\x60' cs).map fun (s, rest) =>
      (some (.word (String.ofList s) (some '\x60')), rest)
  | c :: '\'' :: cs =>
    if ['b', 'B', 'n', 'N', 'r', 'R', 'x', 'X'].contains c then
      (untilMark? '\'' cs).map fun (_, rest) => (some .literal, rest)
    else if c == 'e' || c == 'E' then (afterGuarded? cs).map fun rest => (some .literal, rest)
    else if isBlank c then some (none, '\'' :: cs)
    else if startsWord c then some (some (.word (String.singleton c) none), '\'' :: cs)
    else if isAsciiDigit c then some (some (.number (String.singleton c)), '\'' :: cs)
    else some (some (.sign (String.singleton c)), '\'' :: cs)
  | c :: cs =>
    if isBlank c then some (none, cs)
    else if startsWord c then
      some (some (.word (String.ofList (c :: cs.takeWhile continuesWord)) none),
        cs.dropWhile continuesWord)
    else if isAsciiDigit c || c == '.' then
      let (t, rest) := numberAt (c :: cs)
      some (some t, rest)
    else if c == '$' then
      some (some .literal, cs.dropWhile fun d => d.isAlphanum || d == '_')
    else if c == '?' then some (some .literal, cs.dropWhile isAsciiDigit)
    else
      let (s, rest) := signAt c cs
      some (some (.sign s), rest)

/-- The tokens of a text, each of which takes a character at least. -/
def tokensFrom? : Nat → List Char → Option (List Token)
  | _, [] => some []
  | 0, _ => none
  | n + 1, cs =>
    match next? cs with
    | none => none
    | some (t, rest) => (tokensFrom? n rest).map fun ts => t.toList ++ ts

/-- The tokens of a script; none where a literal or a comment does not end. -/
def tokens? (script : String) : Option (List Token) :=
  tokensFrom? script.toList.length script.toList

end AskSql.Script
