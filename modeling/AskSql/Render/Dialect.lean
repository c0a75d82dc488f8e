import AskSql.Decimal.Notation
import AskSql.Failure
import AskSql.Text.Blank

/-!
# Dialects

A dialect settles how names, texts and truth values are written, what stands for a bound
parameter, and which constructs have a rendering at all.  A mark inside a quoted name or text is
written twice; where the backslash has a meaning inside of texts it is written twice as well.
-/

namespace AskSql

/-- A dialect of SQL. -/
inductive Dialect where
  | sqlite | postgres | mySql
  /-- The common core, without arithmetic on dates. -/
  | ansi
  deriving DecidableEq, Repr

namespace Dialect

/-- The name of a dialect. -/
def name : Dialect → String
  | sqlite => "sqlite"
  | postgres => "postgres"
  | mySql => "mysql"
  | ansi => "ansi"

/-- The names under which dialects are asked for. -/
def names : List (String × Dialect) :=
  [("sqlite", sqlite), ("sqlite3", sqlite), ("postgres", postgres), ("postgresql", postgres),
    ("pg", postgres), ("redshift", postgres), ("duckdb", postgres), ("mysql", mySql),
    ("mariadb", mySql), ("ansi", ansi), ("standard", ansi)]

/-- The dialect of a name, whatever its case and the blanks around it. -/
def ofName (s : String) : Except Failure Dialect :=
  let key := Text.lower (Text.trim s)
  match names.lookup key with
  | some d => .ok d
  | none => .error (.unsupported s!"unknown SQL dialect '{key}'" (some key) none)

/-- Writes each mark in a text twice. -/
def doubled (mark : Char) : List Char → List Char
  | [] => []
  | c :: cs => if c == mark then mark :: mark :: doubled mark cs else c :: doubled mark cs

/-- The mark around names. -/
def nameMark : Dialect → Char
  | mySql => '\x60'
  | _ => '"'

/-- A name between marks; the star stands without. -/
def quoteName (d : Dialect) (s : String) : String :=
  if s == "*" then s
  else String.ofList (d.nameMark :: doubled d.nameMark s.toList ++ [d.nameMark])

/-- A text between marks. -/
def quoteText (d : Dialect) (s : String) : String :=
  let body := doubled '\'' s.toList
  let body := if d = mySql then doubled '\\' body else body
  String.ofList ('\'' :: body ++ ['\''])

/-- What stands for the parameter of a number, counted from one. -/
def placeholder (d : Dialect) (n : Nat) : String :=
  match d with
  | postgres => "$" ++ toString n
  | _ => "?"

/-- Comparison by pattern without regard to case. -/
def hasILike (d : Dialect) : Bool :=
  d == postgres

/-- Arithmetic on dates. -/
def hasDateArithmetic (d : Dialect) : Bool :=
  d != ansi

/-- A truth value. -/
def boolean (d : Dialect) (b : Bool) : String :=
  match d with
  | sqlite => if b then "1" else "0"
  | _ => if b then "TRUE" else "FALSE"

end Dialect

end AskSql
