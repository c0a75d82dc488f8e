/-!
# Records of separated values

A text of separated values is a row of records, one on each line, with commas between their
fields.  A field that starts with a quotation mark ends at the next one that is not written twice,
and may hold commas and line ends; what follows that mark up to the next comma belongs to the field
as well.  Lines without any character hold no record, and a byte order mark in front is passed
over.
-/

namespace AskSql.Csv

/-- Where the reader stands. -/
inductive State where
  /-- Before a record. -/
  | recordStart
  /-- Before a field of a record. -/
  | fieldStart
  /-- In a field without marks, or behind the marks of one. -/
  | plain
  /-- Between the marks of a field. -/
  | quoted
  /-- Behind a mark that closes the field or is the first of two. -/
  | afterQuote
  deriving DecidableEq

/-- What was read: records, fields of the current record and characters of the current field, the
last one first in each. -/
structure Progress where
  state : State := .recordStart
  records : List (List String) := []
  fields : List String := []
  chars : List Char := []

namespace Progress

/-- Closes the current field. -/
def endField (p : Progress) : Progress :=
  { p with state := .fieldStart, fields := String.ofList p.chars.reverse :: p.fields, chars := [] }

/-- Closes the current record. -/
def endRecord (p : Progress) : Progress :=
  let p := p.endField
  { p with state := .recordStart, records := p.fields.reverse :: p.records, fields := [] }

/-- Adds a character to the current field. -/
def add (p : Progress) (state : State) (c : Char) : Progress :=
  { p with state, chars := c :: p.chars }

/-- A character outside of marks. -/
def stepPlain (p : Progress) (c : Char) : Progress :=
  if c == ',' then p.endField
  else if c == '\n' || c == '\r' then p.endRecord
  else p.add .plain c

/-- Reads a character. -/
def step (p : Progress) (c : Char) : Progress :=
  match p.state with
  | .recordStart =>
    if c == '\n' || c == '\r' then p
    else if c == '"' then { p with state := .quoted }
    else p.stepPlain c
  | .fieldStart => if c == '"' then { p with state := .quoted } else p.stepPlain c
  | .plain => p.stepPlain c
  | .quoted => if c == '"' then { p with state := .afterQuote } else p.add .quoted c
  | .afterQuote => if c == '"' then p.add .quoted c else p.stepPlain c

/-- Closes what is open when the text ends. -/
def finish (p : Progress) : List (List String) :=
  (if p.state = .recordStart then p else p.endRecord).records.reverse

end Progress

/-- The records of a text. -/
def records (text : String) : List (List String) :=
  let cs := match text.toList with
    | c :: cs => if c.toNat == 0xFEFF then cs else c :: cs
    | [] => []
  (cs.foldl Progress.step {}).finish

end AskSql.Csv
