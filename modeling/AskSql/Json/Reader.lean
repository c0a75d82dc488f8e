import AskSql.Json.Basic
import AskSql.Text.Ascii

/-!
# Reading documents

`Json.parse?` reads a text as one document with nothing but blanks around it.  The reader takes a
character of the text with every call, so the length of the text bounds its depth.
-/

namespace AskSql.Json

/-- The blanks of a document. -/
def isGap (c : Char) : Bool :=
  c == ' ' || c == '\n' || c == '\t' || c == '\r'

/-- The text after its leading blanks. -/
def skip (cs : List Char) : List Char :=
  cs.dropWhile isGap

/-- The value of a digit of base sixteen, in either case. -/
def hexValue? (c : Char) : Option Nat :=
  if '0' ≤ c && c ≤ '9' then some (c.toNat - 48)
  else if 'a' ≤ c && c ≤ 'f' then some (c.toNat - 87)
  else if 'A' ≤ c && c ≤ 'F' then some (c.toNat - 55)
  else none

/-- Four digits of base sixteen. -/
def hex? (a b c d : Char) : Option Nat := do
  let a ← hexValue? a
  let b ← hexValue? b
  let c ← hexValue? c
  let d ← hexValue? d
  return ((a * 16 + b) * 16 + c) * 16 + d

/-- The character that a letter after a backslash stands for. -/
def unescape? (c : Char) : Option Char :=
  if c == '"' || c == '\\' || c == '/' then some c
  else if c == 'b' then some (Char.ofNat 8)
  else if c == 'f' then some (Char.ofNat 12)
  else if c == 'n' then some '\n'
  else if c == 'r' then some '\r'
  else if c == 't' then some '\t'
  else none

/-- The character of a surrogate pair. -/
def ofPair (high low : Nat) : Char :=
  Char.ofNat (0x10000 + (high - 0xD800) * 0x400 + (low - 0xDC00))

/-- The first half of a surrogate pair. -/
def isHighHalf (n : Nat) : Bool :=
  0xD800 ≤ n && n < 0xDC00

/-- The second half of a surrogate pair. -/
def isLowHalf (n : Nat) : Bool :=
  0xDC00 ≤ n && n < 0xE000

/-- The rest of a text after its opening mark, and what follows the closing one.  An escape that
names half of a surrogate pair without the other half has no reading. -/
def textBody : List Char → Option (List Char × List Char)
  | [] => none
  | '"' :: rest => some ([], rest)
  | '\\' :: 'u' :: a :: b :: c :: d :: '\\' :: 'u' :: e :: f :: g :: h :: rest =>
    match hex? a b c d with
    | none => none
    | some n =>
      if isHighHalf n then
        match hex? e f g h with
        | none => none
        | some m =>
          if isLowHalf m then
            (textBody rest).map fun (cs, after) => (ofPair n m :: cs, after)
          else none
      else if isLowHalf n then none
      else
        (textBody ('\\' :: 'u' :: e :: f :: g :: h :: rest)).map fun (cs, after) =>
          (Char.ofNat n :: cs, after)
  | '\\' :: 'u' :: a :: b :: c :: d :: rest =>
    match hex? a b c d with
    | none => none
    | some n =>
      if isHighHalf n || isLowHalf n then none
      else (textBody rest).map fun (cs, after) => (Char.ofNat n :: cs, after)
  | '\\' :: e :: rest =>
    match unescape? e with
    | none => none
    | some c => (textBody rest).map fun (cs, after) => (c :: cs, after)
  | c :: rest =>
    if c.toNat < 0x20 || c == '\\' then none
    else (textBody rest).map fun (cs, after) => (c :: cs, after)
termination_by cs => cs.length

/-- A text with its marks. -/
def text? (cs : List Char) : Option (String × List Char) :=
  match cs with
  | '"' :: rest => (textBody rest).map fun (body, after) => (String.ofList body, after)
  | _ => none

/-- Digits, at least one. -/
def digits? (cs : List Char) : Option (List Char × List Char) :=
  let ds := cs.takeWhile Text.isAsciiDigit
  if ds.isEmpty then none else some (ds, cs.dropWhile Text.isAsciiDigit)

/-- A number without its sign. -/
def unsigned? (negative : Bool) (cs : List Char) : Option (Numeral × List Char) := do
  let (whole, cs) ← digits? cs
  if whole.head? == some '0' && 1 < whole.length then none else pure ()
  let (fraction, cs) ←
    match cs with
    | '.' :: rest => (digits? rest).map fun (ds, rest) => (some ds, rest)
    | _ => some (none, cs)
  let (exponent, cs) ←
    match cs with
    | 'e' :: rest | 'E' :: rest =>
      match rest with
      | '-' :: rest => (digits? rest).map fun (ds, rest) => (some (true, ds), rest)
      | '+' :: rest => (digits? rest).map fun (ds, rest) => (some (false, ds), rest)
      | _ => (digits? rest).map fun (ds, rest) => (some (false, ds), rest)
    | _ => some (none, cs)
  return (⟨negative, whole, fraction, exponent⟩, cs)

/-- A number. -/
def numeral? (cs : List Char) : Option (Numeral × List Char) :=
  match cs with
  | '-' :: rest => unsigned? true rest
  | _ => unsigned? false cs

mutual

/-- A value that starts at the first character. -/
def value? : Nat → List Char → Option (Json × List Char)
  | 0, _ => none
  | n + 1, cs =>
    match cs with
    | 'n' :: 'u' :: 'l' :: 'l' :: rest => some (null, rest)
    | 't' :: 'r' :: 'u' :: 'e' :: rest => some (bool true, rest)
    | 'f' :: 'a' :: 'l' :: 's' :: 'e' :: rest => some (bool false, rest)
    | '"' :: _ => (text? cs).map fun (s, rest) => (text s, rest)
    | '[' :: rest =>
      match skip rest with
      | ']' :: rest => some (array [], rest)
      | rest => (items? n rest).map fun (js, rest) => (array js, rest)
    | '{' :: rest =>
      match skip rest with
      | '}' :: rest => some (object [], rest)
      | rest => (members? n rest).map fun (ms, rest) => (object ms, rest)
    | _ => (numeral? cs).map fun (x, rest) => (number x, rest)

/-- The items of an array that has some, up to its end. -/
def items? : Nat → List Char → Option (List Json × List Char)
  | 0, _ => none
  | n + 1, cs => do
    let (j, rest) ← value? n cs
    match skip rest with
    | ',' :: rest =>
      let (js, rest) ← items? n (skip rest)
      return (j :: js, rest)
    | ']' :: rest => return ([j], rest)
    | _ => none

/-- The members of an object that has some, up to its end. -/
def members? : Nat → List Char → Option (List (String × Json) × List Char)
  | 0, _ => none
  | n + 1, cs => do
    let (name, rest) ← text? cs
    match skip rest with
    | ':' :: rest =>
      let (j, rest) ← value? n (skip rest)
      match skip rest with
      | ',' :: rest =>
        let (ms, rest) ← members? n (skip rest)
        return ((name, j) :: ms, rest)
      | '}' :: rest => return ([(name, j)], rest)
      | _ => none
    | _ => none

end

/-- The document that a text holds. -/
def parse? (s : String) : Option Json :=
  let cs := s.toList
  match value? (cs.length + 1) (skip cs) with
  | some (j, rest) => if (skip rest).isEmpty then some j else none
  | none => none

end AskSql.Json
