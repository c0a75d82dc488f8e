import AskSql.Compose.Conditions
import AskSql.Query.Scope

/-!
# Queries from components

The components of a question are looked up in the schema one after the other, joining the tables
that they need: joins first, then aggregates, groups and conditions.  What comes after, the
selected columns and the order, has to make do with the tables that are joined by then.
-/

namespace AskSql

namespace JoinTree

/-- The first hop that brings in a table keeps the rows that have no match there. -/
def keepUnmatched (t : JoinTree) (table : String) : JoinTree :=
  { t with
    hops := (updateFirst (fun j => Text.sameFold j.table table)
      (fun j => { j with kind := .left }) t.hops).getD t.hops }

/-- Joins the two tables of a join that is asked for. -/
def joinPart (s : Schema) (t : JoinTree) (part : JoinPart) : JoinTree :=
  let t := (t.join s part.left).join s part.right
  if part.kind == "left" then t.keepUnmatched part.right else t

end JoinTree

/-- The aggregate for one that is mentioned.  Rows can be counted in any table; other functions
take the first number of a table where no column is named. -/
def AggregationPart.resolve? (s : Schema) (t : JoinTree) (part : AggregationPart) :
    Option (Joined Aggregate) := do
  let function ← AggregateFunction.ofName? part.function
  let table := part.table.getD t.base
  if part.column == "*" then
    if function == .count then return (.countRows table (some "count"), t.join s table)
    else
      let measure ← ((← s.table? table).measures).head?
      return ({ function, argument := .column ⟨table, measure.name, none⟩
                label := some (part.function ++ "_" ++ measure.name) }, t.join s table)
  else
    let (column, t) ←
      Mention.resolve? s t { column := some part.column, table := part.table }
    return ({ function, argument := .column column
              label := some (part.function ++ "_" ++ column.column) }, t)

/-- The aggregate for one that is mentioned, if it can be made out. -/
def AggregationPart.resolve (s : Schema) (t : JoinTree) (part : AggregationPart) :
    Joined (Option Aggregate) :=
  t.attempt (part.resolve? s t)

namespace OrderPart

/-- The aggregate of a query that an order asks for by its name. -/
def aggregate? (q : Query) (part : OrderPart) : Option Aggregate := do
  if part.target.table.isSome then none
  let function ← AggregateFunction.ofName? (← part.target.column)
  q.aggregates.find? fun a => a.function == function

/-- The key for an order that is mentioned: by an aggregate of the query, or by a column of its
tables. -/
def key (s : Schema) (q : Query) (t : JoinTree) (part : OrderPart) : Joined (Option SortKey) :=
  match part.aggregate? q with
  | some a => (some ⟨.aggregate a, part.direction⟩, t)
  | none =>
    let (column, t) := part.target.resolve s t
    ((column.filter fun c => q.hasTable c.table).map fun c => ⟨.column c, part.direction⟩, t)

end OrderPart

namespace Components

/-- There is no table to start from. -/
def noTable : Failure :=
  .noTable "no table mentioned, no default table and an empty schema" none

/-- The first table of the schema that is mentioned, or else the default one, or else the first. -/
def baseTable (s : Schema) (default : Option String) (c : Components) : Except Failure String :=
  let mentioned := c.tables.findSome? s.table? <|>
    (c.columns.filterMap Mention.table).findSome? s.table?
  match mentioned.map Table.name <|> default <|> s.tables.head?.map Table.name with
  | some name => .ok name
  | none => .error noTable

/-- Columns without repetitions. -/
def distinctColumns (columns : List Reference) : List Reference :=
  columns.foldl (fun seen c => if seen.any (·.sameColumn c) then seen else seen ++ [c]) []

/-- The conditions on the first date of the tables: those of a span of time and of a month. -/
def timeConditions (s : Schema) (t : JoinTree) (c : Components) : List Condition :=
  match t.dateColumn? s with
  | none => []
  | some date =>
    (c.windowDays.map fun days => ⟨.column date, .gtEq, .daysAgo days⟩).toList ++
      (c.month.map fun month => ⟨.monthOf date, .eq, .literal (.integer month)⟩).toList

/-- The columns that are mentioned and not compared. -/
def selectable (c : Components) : List Mention :=
  let compared := c.conditions.filterMap ConditionPart.column
  c.columns.filter fun m => (m.column.map fun name => !compared.contains name).getD false

/-- The columns that a query without aggregates and groups selects. -/
def plainItems (s : Schema) (q : Query) (t : JoinTree) (c : Components) : Joined (List Item) :=
  let (columns, t) := JoinTree.collect (fun t m => m.resolve s t) t c.selectable
  let columns := columns.filter fun r => q.hasTable r.table
  (if columns.isEmpty then [.column (.star q.source)] else columns.map .column, t)

/-- What a query with aggregates or groups selects: the groups, and the aggregates or else the
number of rows. -/
def groupedItems (source : String) (groupBy : List Reference) (aggregates : List Aggregate) :
    List Item :=
  groupBy.map .column ++
    (if aggregates.isEmpty then [.countRows source (some "count")] else aggregates).map .aggregate

/-- The query for some components, all references of which are in scope. -/
def query (s : Schema) (default : Option String) (c : Components) : Except Failure Query := do
  let base ← c.baseTable s default
  let t := c.joins.foldl (JoinTree.joinPart s) (.ofBase base)
  let (aggregates, t) := JoinTree.collect (fun t a => a.resolve s t) t c.aggregations
  let (groupBy, t) := JoinTree.collect (fun t m => m.resolve s t) t c.groupBy
  let groupBy := distinctColumns groupBy
  let (conditions, t) ← Condition.ofParts s [] t c.conditions
  let q : Query :=
    { source := base, joins := ← t.joinsFrom base
      filters := conditions ++ c.timeConditions s t, groupBy }
  let (items, t) :=
    if aggregates.isEmpty && groupBy.isEmpty then c.plainItems s q t
    else (groupedItems base groupBy aggregates, t)
  let q := { q with items }
  let (orderBy, _) := JoinTree.collect (fun t part => part.key s q t) t c.orderBy
  let q := { q with orderBy, limit := c.limit, distinct := c.distinct }
  q.validate
  return q

end Components

end AskSql
