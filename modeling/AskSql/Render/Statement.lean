import AskSql.Query.Scope
import AskSql.Render.Dialect

/-!
# Statements

A query is written clause by clause in one order: selected items, source, joins, filter, groups,
filter of the groups, order, limit.  Values are spelled out, or each becomes a parameter: then a
placeholder stands for it, and the values are kept in the order in which they come up.  A query
inside of a condition goes on with the parameters of the one around it.

A construct that a dialect has no words for is refused; nothing is left out.
-/

namespace AskSql

/-- A literal spelled out in a dialect. -/
def Literal.sql (d : Dialect) : Literal → String
  | integer n => toString n
  | float x => Decimal.positional x
  | text s | date s => d.quoteText s
  | boolean b => d.boolean b

/-- Writing a part of a statement, with the parameters that came up so far. -/
abbrev Writer := StateT (List Literal) (Except Failure)

/-- An aggregate over all columns other than the count. -/
def Failure.starAggregate (f : AggregateFunction) : Failure :=
  .unsupported s!"{f.sqlName}(*) is not a valid aggregate" none none

/-- A comparison with a list of no values. -/
def Failure.emptyList (op : Comparison) : Failure :=
  .unsupported s!"{op.sql} with an empty value list" none none

/-- A comparison with a right side that it cannot take. -/
def Failure.mismatchedSides (op : Comparison) (rhs : Comparand) : Failure :=
  .unsupported s!"{op.sql} cannot take a {rhs.kindName} operand" none none

namespace Dialect

/-- A reference in a statement: table and column in marks. -/
def reference (d : Dialect) (r : Reference) : String :=
  d.quoteName r.table ++ "." ++ d.quoteName r.column

/-- What an aggregate is taken over. -/
def argument (d : Dialect) (f : AggregateFunction) : Argument → Except Failure String
  | .column c =>
    if c.isStar then
      if f = .count then .ok "*" else .error (.starAggregate f)
    else .ok (d.reference c)
  | .arithmetic left op right =>
    .ok (d.reference left ++ " " ++ op.symbol ++ " " ++ d.reference right)
  | .raw sql => .ok sql

/-- An aggregate in a statement. -/
def aggregate (d : Dialect) (a : Aggregate) : Except Failure String := do
  let arg ← d.argument a.function a.argument
  let distinct := if a.distinct && arg != "*" then "DISTINCT " else ""
  return a.function.sqlName ++ "(" ++ distinct ++ arg ++ ")"

/-- A selected item.  A column always has a label, its path where none is given. -/
def item (d : Dialect) : Item → Except Failure String
  | .column c =>
    .ok (if c.isStar then d.reference c
      else d.reference c ++ " AS " ++ d.quoteName (c.label.getD c.path))
  | .aggregate a => do
    let sql ← d.aggregate a
    return match a.label with
      | some label => sql ++ " AS " ++ d.quoteName label
      | none => sql

/-- The label by which the order refers to an aggregate: its own, or else that of the first
selected aggregate that computes the same. -/
def orderLabel? (selected : List Aggregate) (a : Aggregate) : Option String :=
  a.label <|> (selected.find? fun b => b.sameExpression a).bind Aggregate.label

/-- A key of the order without its direction. -/
def orderItem (d : Dialect) (selected : List Aggregate) : Item → Except Failure String
  | .column c => .ok (d.reference c)
  | .aggregate a =>
    match orderLabel? selected a with
    | some label => .ok (d.quoteName label)
    | none => d.aggregate a

/-- A key of the order. -/
def orderKey (d : Dialect) (selected : List Aggregate) (k : SortKey) : Except Failure String := do
  let sql ← d.orderItem selected k.item
  return match k.direction with
    | some .asc => sql ++ " ASC"
    | some .desc => sql ++ " DESC"
    | none => sql

/-- The number of the month of a date. -/
def monthOf (d : Dialect) (c : Reference) : Except Failure String :=
  match d with
  | sqlite => .ok ("CAST(strftime('%m', " ++ d.reference c ++ ") AS INTEGER)")
  | postgres | mySql => .ok ("EXTRACT(MONTH FROM " ++ d.reference c ++ ")")
  | ansi => .error (.unsupportedIn "month extraction" d.name)

/-- The day so many days before today. -/
def daysAgo (d : Dialect) (days : Nat) : Except Failure String :=
  match d with
  | sqlite => .ok s!"DATE('now', '-{days} days')"
  | postgres => .ok s!"CURRENT_DATE - INTERVAL '{days} days'"
  | mySql => .ok s!"DATE_SUB(CURDATE(), INTERVAL {days} DAY)"
  | ansi => .error (.unsupportedIn "relative date interval" d.name)

/-- A value: spelled out, or one more parameter. -/
def value (d : Dialect) (parameterized : Bool) (v : Literal) : Writer String := do
  if parameterized then
    let params ← get
    set (params ++ [v])
    return d.placeholder (params.length + 1)
  else
    return v.sql d

/-- Values one after the other. -/
def values (d : Dialect) (parameterized : Bool) : List Literal → Writer (List String)
  | [] => return []
  | v :: vs => do
    let here ← d.value parameterized v
    let rest ← d.values parameterized vs
    return here :: rest

/-- The left side of a condition. -/
def operand (d : Dialect) (parameterized : Bool) : Operand → Writer String
  | .column c => return d.reference c
  | .aggregate a => d.aggregate a
  | .monthOf c => d.monthOf c
  | .literal v => d.value parameterized v

/-- The limit on the number of rows. -/
def limit (d : Dialect) (n : Nat) : String :=
  match d with
  | ansi => s!"FETCH FIRST {n} ROWS ONLY"
  | _ => s!"LIMIT {n}"

/-- The items of a query, all columns of the source where it selects none. -/
def items (d : Dialect) (source : String) : List Item → Except Failure (List String)
  | [] => .ok [d.quoteName source ++ ".*"]
  | is => is.mapM d.item

/-- The keys of the order. -/
def orderKeys (d : Dialect) (selected : List Item) (ks : List SortKey) :
    Except Failure (List String) :=
  ks.mapM (d.orderKey (selected.filterMap Item.aggregate?))

/-- A clause, unless it has no parts. -/
def clause (keyword between : String) : List String → List String
  | [] => []
  | parts => [keyword ++ between.intercalate parts]

mutual

/-- A condition. -/
def condition (d : Dialect) (parameterized : Bool) : Condition → Writer String
  | ⟨lhs, op, rhs⟩ => do
    if op = .iLike && !d.hasILike then throw (.unsupportedIn "ILIKE" d.name)
    let left ← d.operand parameterized lhs
    let right ← comparison d parameterized op rhs
    return left ++ right

/-- What follows the left side of a condition. -/
def comparison (d : Dialect) (parameterized : Bool) (op : Comparison) :
    Comparand → Writer String
  | .subquery q =>
    match op with
    | .isNull => return " IS NULL"
    | .isNotNull => return " IS NOT NULL"
    | .between => throw (.mismatchedSides op (.subquery q))
    | _ => do
      q.validate
      let inner ← select d parameterized " " q
      return " " ++ op.sql ++ " (" ++ inner ++ ")"
  | rhs =>
    match op, rhs with
    | .isNull, _ | .eq, .null => return " IS NULL"
    | .isNotNull, _ | .notEq, .null => return " IS NOT NULL"
    | .between, .range low high => do
      let low ← d.value parameterized low
      let high ← d.value parameterized high
      return " BETWEEN " ++ low ++ " AND " ++ high
    | .between, _ => throw (.mismatchedSides op rhs)
    | .isIn, .list vs | .notIn, .list vs => do
      if vs.isEmpty then throw (.emptyList op)
      let items ← d.values parameterized vs
      return " " ++ op.sql ++ " (" ++ ", ".intercalate items ++ ")"
    | .isIn, .literal v | .notIn, .literal v => do
      let item ← d.value parameterized v
      return " " ++ op.sql ++ " (" ++ item ++ ")"
    | .isIn, .daysAgo _ | .notIn, .daysAgo _ | .isIn, .column _ | .notIn, .column _ =>
      throw (.mismatchedSides op rhs)
    | _, .range .. | _, .list _ | _, .null => throw (.mismatchedSides op rhs)
    | _, .literal v => do
      let value ← d.value parameterized v
      return " " ++ op.sql ++ " " ++ value
    | _, .column c => return " " ++ op.sql ++ " " ++ d.reference c
    | _, .daysAgo n => do
      let day ← d.daysAgo n
      return " " ++ op.sql ++ " " ++ day
    | _, .subquery _ => throw (.mismatchedSides op rhs)

/-- Conditions one after the other. -/
def conditions (d : Dialect) (parameterized : Bool) : List Condition → Writer (List String)
  | [] => return []
  | c :: cs => do
    let here ← condition d parameterized c
    let rest ← conditions d parameterized cs
    return here :: rest

/-- The clauses of some joins. -/
def joins (d : Dialect) (parameterized : Bool) : List Join → Writer (List String)
  | [] => return []
  | ⟨kind, left, right, cs⟩ :: js => do
    let extra ← conditions d parameterized cs
    let on := d.reference left ++ " = " ++ d.reference right
    let here := kind.sql ++ " " ++ d.quoteName right.table ++ " ON " ++
      " AND ".intercalate (on :: extra)
    let rest ← joins d parameterized js
    return here :: rest

/-- A query that is well scoped, with a text between its clauses. -/
def select (d : Dialect) (parameterized : Bool) (between : String) : Query → Writer String
  | ⟨source, is, js, filters, groupBy, having, orderBy, limit, distinct⟩ => do
    let selected ← d.items source is
    let joined ← joins d parameterized js
    let filtered ← conditions d parameterized filters
    let grouped ← conditions d parameterized having
    let ordered ← d.orderKeys is orderBy
    let keyword := if distinct then "SELECT DISTINCT " else "SELECT "
    return between.intercalate <|
      clause keyword ", " selected ++
        ["FROM " ++ d.quoteName source] ++
        joined ++
        clause "WHERE " " AND " filtered ++
        clause "GROUP BY " ", " (groupBy.map d.reference) ++
        clause "HAVING " " AND " grouped ++
        clause "ORDER BY " ", " ordered ++
        limit.toList.map d.limit

end

end Dialect

/-- A statement as it is handed out: its text, and the values that its placeholders stand for. -/
structure Rendered where
  sql : String
  params : List Literal

/-- The statement for a query, with a line for each clause if `pretty`, and with placeholders for
its values if `parameterized`. -/
def Query.renderAs (q : Query) (d : Dialect) (pretty parameterized : Bool) :
    Except Failure Rendered := do
  q.validate
  let (sql, params) ← (d.select parameterized (if pretty then "\n" else " ") q).run []
  return ⟨sql, params⟩

/-- The statement for a query with its values spelled out. -/
def Query.render (q : Query) (d : Dialect) (pretty : Bool) : Except Failure String :=
  return (← q.renderAs d pretty false).sql

/-- The statement for a query with placeholders, and its values. -/
def Query.renderBound (q : Query) (d : Dialect) (pretty : Bool) : Except Failure Rendered :=
  q.renderAs d pretty true

end AskSql
