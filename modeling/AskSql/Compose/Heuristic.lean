import AskSql.Compose.JoinTree
import AskSql.Compose.Phrasing
import AskSql.Query.Scope

/-!
# Queries from the words of a question

A query is put together from single words and phrases.  The base table comes from words that hint
at one, else from the names of tables, else from the caller.  The aggregate is settled next, since
it may need line items, and then the grouping, which may join further tables; a table that is
grouped by becomes the one that the query starts from.  The filters come when all tables are there.
-/

namespace AskSql

namespace Heuristic

open Name (surfaceForms)

/-! ## The base table -/

/-- Words that speak of what a table holds, with the likely names of the table. -/
def tableHints : List (String × List String) :=
  [("revenue", ["orders", "sales", "invoices", "transactions"]),
    ("sales", ["sales", "orders", "invoices"]),
    ("income", ["invoices", "orders", "payments"]),
    ("spend", ["orders", "transactions", "purchases"]),
    ("spending", ["orders", "transactions", "purchases"]),
    ("purchases", ["purchases", "orders"]),
    ("order", ["orders"]), ("orders", ["orders"]),
    ("customer", ["customers", "clients"]), ("customers", ["customers", "clients"]),
    ("product", ["products", "items"]), ("products", ["products", "items"]),
    ("restaurant", ["restaurants"]), ("restaurants", ["restaurants"])]

/-- Words behind which a grouping stands. -/
def groupingWords : List String :=
  ["per", "by", "each", "every"]

/-- The words that do not stand directly behind a word for grouping. -/
def candidates : List String → List String
  | [] => []
  | w :: ws => w :: ((w :: ws).zip ws).filterMap fun (before, word) =>
      if groupingWords.contains before then none else some word

/-- The table at which some word hints. -/
def hintedTable? (s : Schema) (words : List String) : Option Table :=
  words.findSome? fun w =>
    (tableHints.lookup w).bind fun names => names.findSome? s.findTable?

/-- The table that two neighbouring words name, or else a single one. -/
def namedTable? (s : Schema) (words : List String) : Option Table :=
  (Phrasing.pairs words).findSome? s.findTable? <|> words.findSome? s.findTable?

/-- There is no table to start from. -/
def noTable : Failure :=
  .noTable "schema has no tables and no default table was given" none

/-- The table that the question is about, or else the default one, or else the first. -/
def baseTable (s : Schema) (default : Option String) (words : List String) :
    Except Failure String :=
  let ws := candidates words
  let found := (hintedTable? s ws <|> namedTable? s ws).map Table.name <|>
    default.map s.tableName <|> s.tables.head?.map Table.name
  match found with
  | some name => .ok name
  | none => .error noTable

/-! ## The aggregate -/

/-- The columns that hold a quantity and a price, if the table has both. -/
def lineItemColumns? (t : Table) : Option (String × String) := do
  let quantity ← ["quantity", "qty", "units"].findSome? t.column?
  let price ← ["unit_price", "price", "unit_cost"].findSome? t.column?
  return (quantity.name, price.name)

/-- The table holds line items. -/
def isLineItems (t : Table) : Bool :=
  (lineItemColumns? t).isSome

/-- A table of line items: the base table itself, or the first one to which a path leads. -/
def lineItems? (s : Schema) (base : String) : Option Table :=
  (s.table? base).filter isLineItems <|> s.tables.find? fun t =>
    !Text.sameFold t.name base && isLineItems t && (s.joinPath? [base] t.name).isSome

/-- The column of a table that holds what there is to sum up. -/
def summand? (t : Table) : Option Column :=
  (["total", "amount", "price"].findSome? fun part => t.columns.find? fun c =>
    containsText (Name.normalize c.name) part && !c.isKeyLike) <|> t.measures.head?

/-- The label that the question gives a sum. -/
def sumLabel? (p : Phrasing) : Option String :=
  if p.hasAny ["revenue"] then some "total_revenue"
  else if p.hasAny ["sales"] then some "total_sales"
  else none

/-- The number of rows of the base table. -/
def rowCount (t : JoinTree) : Aggregate :=
  .countRows t.base (some "count")

/-- The sum of quantities times prices. -/
def lineItemSum (items quantity price : String) (label : Option String) : Aggregate where
  function := .sum
  argument := .arithmetic ⟨items, quantity, none⟩ .multiply ⟨items, price, none⟩
  label := some (label.getD "total_value")

/-- A sum over a column of the base table, or the number of its rows if there is none to sum
up. -/
def columnSum (s : Schema) (t : JoinTree) (label : Option String) : Aggregate :=
  match (s.table? t.base).bind summand? with
  | some c =>
    { function := .sum, argument := .column ⟨t.base, c.name, none⟩
      label := some (label.getD ("total_" ++ Name.normalize c.name)) }
  | none => rowCount t

/-- A sum over line items, which are joined for it, with the tree that has them. -/
def itemsSum? (s : Schema) (t : JoinTree) (label : Option String) :
    Option (Aggregate × JoinTree) := do
  let items ← lineItems? s t.base
  let (quantity, price) ← lineItemColumns? items
  let t ← t.join? s items.name
  return (lineItemSum items.name quantity price label, t)

/-- The sum that the question asks for. -/
def sum (s : Schema) (p : Phrasing) (t : JoinTree) : Aggregate × JoinTree :=
  let label := sumLabel? p
  (itemsSum? s t label).getD (columnSum s t label, t)

/-- The number that the question names, or else the first one of the base table. -/
def measure? (s : Schema) (p : Phrasing) (t : JoinTree) : Option Reference :=
  let named := t.findInTables? s fun table =>
    (table.measures.find? fun c => Phrasing.mentionsName p.words c.name).map fun c =>
      (⟨table.name, c.name, none⟩ : Reference)
  named <|> (s.table? t.base).bind fun table =>
    table.measures.head?.map fun c => ⟨table.name, c.name, none⟩

/-- An aggregate over a number, or the number of rows if there is none. -/
def measured (s : Schema) (p : Phrasing) (t : JoinTree) (function : AggregateFunction)
    (name : String) : Aggregate :=
  match measure? s p t with
  | some c =>
    { function, argument := .column c, label := some (name ++ "_" ++ Name.normalize c.column) }
  | none => rowCount t

/-- The aggregate that the question asks for. -/
def aggregate (s : Schema) (p : Phrasing) (t : JoinTree) : Option Aggregate × JoinTree :=
  if p.hasAny ["average", "avg", "mean"] then (some (measured s p t .avg "avg"), t)
  else if p.hasAny ["count"] || p.mentionsAny ["how many", "number of"] then
    (some (rowCount t), t)
  else if p.hasAny ["total", "sum", "revenue", "sales"] then
    let (a, t) := sum s p t
    (some a, t)
  else if p.hasAny ["maximum", "max", "highest", "largest"] then
    (some (measured s p t .max "max"), t)
  else if p.hasAny ["minimum", "min", "lowest", "smallest"] then
    (some (measured s p t .min "min"), t)
  else (none, t)

/-! ## The grouping -/

/-- A column of the tables that are there. -/
def columnInScope? (s : Schema) (t : JoinTree) (name : String) : Option Reference :=
  t.tables.findSome? fun table => (s.column? table name).map fun c => ⟨table, c.name, none⟩

/-- The label of a table, which is joined and made the one to start from if it is not there. -/
def groupByTable? (s : Schema) (t : JoinTree) (table : Table) : Option (Reference × JoinTree) := do
  let label ← table.labelColumn?
  let target : Reference := ⟨table.name, label.name, none⟩
  if t.hasTable table.name then return (target, t)
  else
    let t ← t.join? s table.name
    return (target, { t with root := table.name })

/-- A column of the first of some tables that can be joined. -/
def joinedColumn? (s : Schema) (t : JoinTree) (name : String) (tables : List Table) :
    Option (Reference × JoinTree) :=
  tables.findSome? fun table => do
    let t ← t.join? s table.name
    let c ← table.column? name
    return (⟨table.name, c.name, none⟩, t)

/-- What a word behind a word for grouping stands for: the date, a column that is there, a table,
or a column of a table that can be joined. -/
def groupTarget? (s : Schema) (t : JoinTree) (word : String) : Option (Reference × JoinTree) :=
  if ["day", "date", "daily"].contains word then (t.dateColumn? s).map fun c => (c, t)
  else
    match columnInScope? s t word with
    | some c => some (c, t)
    | none =>
      match s.findTable? word with
      | some table => groupByTable? s t table
      | none => joinedColumn? s t word (s.tablesWithColumn word)

/-- Groups by what two words mean together, or else by what the first one means. -/
def groupStep (s : Schema) (acc : List Reference × JoinTree) (phrase : String × Option String) :
    List Reference × JoinTree :=
  let (columns, t) := acc
  let (first, second) := phrase
  let found := (second.bind fun second => groupTarget? s t (first ++ "_" ++ second)) <|>
    groupTarget? s t first
  match found with
  | some (c, t) =>
    (if columns.any fun d => d.sameColumn c then columns else columns ++ [c], t)
  | none => acc

/-- The columns to group by, with the tree that has their tables. -/
def grouping (s : Schema) (p : Phrasing) (t : JoinTree) : List Reference × JoinTree :=
  p.groupings.foldl (groupStep s) ([], t)

/-! ## The filters -/

/-- Words for the states that a thing may be in. -/
def statusWords : List String :=
  ["pending", "shipped", "delivered", "cancelled", "canceled", "completed", "paid", "unpaid",
    "refunded", "active", "inactive", "open", "closed", "returned", "processing"]

/-- The date lies at most so many days back. -/
def recent? (date : Option Reference) (days : Option Nat) : Option Condition := do
  return ⟨.column (← date), .gtEq, .daysAgo (← days)⟩

/-- The date lies in a month. -/
def inMonth? (date : Option Reference) (month : Option Nat) : Option Condition := do
  return ⟨.monthOf (← date), .eq, .literal (.integer (← month))⟩

/-- The status is the first one that the question names. -/
def hasStatus? (s : Schema) (p : Phrasing) (t : JoinTree) : Option Condition := do
  let status ← p.words.find? statusWords.contains
  let column ← t.findInTables? s fun table => (table.column? "status").map fun c =>
    (⟨table.name, c.name, none⟩ : Reference)
  return .compare column .eq (.text status)

/-- The conditions that the question asks for. -/
def filters (s : Schema) (p : Phrasing) (t : JoinTree) : List Condition :=
  let date := t.dateColumn? s
  (recent? date p.daysBack?).toList ++ (inMonth? date p.month?).toList ++
    (hasStatus? s p t).toList

/-! ## The query -/

/-- The columns of the base table that the question names, in the order of the table.  Words that
name the table itself do not count. -/
def namedColumns (s : Schema) (p : Phrasing) (t : JoinTree) : List Item :=
  match s.table? t.base with
  | none => []
  | some table =>
    let forms := surfaceForms table.name
    let words := p.words.filter fun w => !forms.contains w
    (table.columns.filter fun c => Phrasing.mentionsName words c.name).map fun c =>
      .column ⟨t.base, c.name, none⟩

/-- What the query selects: the groups with the aggregate, or else the columns that are named, or
else all of them. -/
def items (s : Schema) (p : Phrasing) (t : JoinTree) (aggregate : Option Aggregate)
    (groupBy : List Reference) : List Item :=
  match aggregate with
  | some a => groupBy.map .column ++ [.aggregate a]
  | none =>
    if groupBy.isEmpty then
      let named := namedColumns s p t
      if named.isEmpty then [.column (.star t.root)] else named
    else groupBy.map .column ++ [.aggregate (rowCount t)]

/-- The query with the rows that are asked for: those at one end of the order by its aggregate,
or the newest ones of the base table. -/
def takePortion (s : Schema) (base : String) (q : Query) : Phrasing.Portion → Query
  | .all => q
  | .best count direction =>
    { q with
      limit := count
      orderBy := (q.aggregates.head?.map fun a => ⟨.aggregate a, some direction⟩).toList }
  | .newest count =>
    let date := (s.table? base).bind Table.dateColumn?
    { q with
      limit := count
      orderBy := (date.map fun c => ⟨.column ⟨base, c.name, none⟩, some .desc⟩).toList }

/-- The query for a question, all references of which are in scope. -/
def query (s : Schema) (default : Option String) (text : String) : Except Failure Query := do
  let p := Phrasing.ofText text
  let base ← baseTable s default p.words
  let (aggregate, t) := aggregate s p (.ofBase base)
  let (groupBy, t) := grouping s p t
  let joins ← t.joinsFrom t.root
  let q : Query :=
    { source := t.root, items := items s p t aggregate groupBy, joins,
      filters := filters s p t, groupBy }
  let q := takePortion s t.base q p.portion
  q.validate
  return q

end Heuristic

end AskSql
