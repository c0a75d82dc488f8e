import AskSql.Question.Entity
import AskSql.Question.Wording
import AskSql.Text.Numeral

/-!
# Components of a question

The pieces that a query is made of, as the question names them and before anything is looked up in
the schema: columns and tables, comparisons with their values, aggregates, groups, the order,
joins, the limit, and spans of time.
-/

namespace AskSql

/-- A column that is mentioned, or a table as a whole where no column is named. -/
structure Mention where
  column : Option String := none
  table : Option String := none
  ambiguous : Bool := false
  deriving DecidableEq, Repr

/-- A comparison that is mentioned. -/
structure ConditionPart where
  column : Option String
  table : Option String
  /-- The comparison in its usual form. -/
  operator : String
  value : Option String
  valueKind : Option EntityKind
  /-- The upper bound of a range. -/
  high : Option String
  /-- The logical word in front of the comparison. -/
  modifier : Option String
  /-- The number of days, where the value is a span of time. -/
  days : Option Nat := none
  deriving DecidableEq, Repr

/-- An aggregate that is mentioned. -/
structure AggregationPart where
  function : String
  /-- A star where no column is named. -/
  column : String
  table : Option String
  deriving DecidableEq, Repr

/-- A key of the order that is mentioned. -/
structure OrderPart where
  target : Mention
  direction : Option Direction
  deriving DecidableEq, Repr

/-- A join that is mentioned. -/
structure JoinPart where
  kind : String
  left : String
  right : String
  deriving DecidableEq, Repr

/-- The components of a question. -/
structure Components where
  columns : List Mention := []
  tables : List String := []
  conditions : List ConditionPart := []
  aggregations : List AggregationPart := []
  groupBy : List Mention := []
  orderBy : List OrderPart := []
  joins : List JoinPart := []
  limit : Option Nat := none
  distinct : Bool := false
  /-- The days of a span of time that is compared with nothing. -/
  windowDays : Option Nat := none
  /-- The number of a month that is compared with nothing. -/
  month : Option Nat := none
  deriving DecidableEq, Repr

namespace Entity

/-- The entity as a mention. -/
def mention (e : Entity) : Mention :=
  match e.kind with
  | .table => { table := some e.name }
  | _ => { column := some e.name, table := e.table, ambiguous := e.ambiguous }

/-- A word that connects conditions. -/
def isLogical (e : Entity) : Bool :=
  e.kind == .operator && (e.resolved == some "and" || e.resolved == some "or" ||
    e.resolved == some "not")

/-- A comparison. -/
def isComparison (e : Entity) : Bool :=
  e.kind == .operator && !e.isLogical

/-- The value that an entity stands for. -/
def value (e : Entity) : String :=
  (e.note? "value").getD e.name

/-- The number of a note, if it fits in 32 bits. -/
def noted? (e : Entity) (name : String) : Option Nat :=
  (e.note? name).bind (Text.natural? 32)

end Entity

namespace Components

/-- Adds an element to a list that does not have it. -/
def addNew {α : Type} [BEq α] (xs : List α) (x : α) : List α :=
  if xs.contains x then xs else xs ++ [x]

/-- The tables that some entities mention, each once. -/
def mentionedTables (es : List Entity) : List String :=
  let named := es.filterMap fun e =>
    match e.kind with
    | .table => some e.name
    | .column => e.table
    | _ => none
  named.foldl (fun ts t => if ts.any (Text.sameFold · t) then ts else ts ++ [t]) []

/-- The columns that some entities mention, each once. -/
def mentionedColumns (es : List Entity) : List Mention :=
  ((es.filter fun e => e.kind == .column).map Entity.mention).foldl addNew []

/-! ## Conditions -/

/-- The word that connects a comparison with what is in front of it, up to the comparison
before. -/
def modifier? (before : List Entity) : Option String :=
  ((before.reverse.takeWhile fun e => !e.isComparison).find? Entity.isLogical).map Entity.name

/-- The entities that may be the right side of a comparison, numbered from `n` on. -/
def sides (n : Nat) (after : List Entity) : List (Nat × Entity) :=
  (after.zipIdx n).filterMap fun (e, i) =>
    if e.kind.isValue || e.kind == .column then some (i, e) else none

/-- A comparison between the last column before it and the next value or column behind it, with
the numbers of the entities that it uses up. -/
def conditionAt (before : List Entity) (op : Entity) (after : List Entity) :
    ConditionPart × List Nat :=
  let column := before.reverse.find? fun e => e.kind == .column
  let behind := sides (before.length + 1) after
  let value := behind.head?
  let high :=
    if op.name == "between" then behind.tail.find? fun (_, e) => e.kind.isValue else none
  let days := match value with
    | some (_, e) => if e.kind == .timeRange then e.noted? "days" else none
    | none => none
  ({ column := column.map Entity.name
     table := column.bind Entity.table
     operator := op.name
     value := value.map fun (_, e) => e.value
     valueKind := value.map fun (_, e) => e.kind
     high := high.map fun (_, e) => e.value
     modifier := modifier? before
     days },
    value.toList.map Prod.fst ++ high.toList.map Prod.fst)

/-- The comparisons from some place on, with the numbers of the entities that they use up. -/
def conditionsFrom (before : List Entity) : List Entity → List (ConditionPart × List Nat)
  | [] => []
  | e :: after =>
    (if e.isComparison then [conditionAt before e after] else []) ++
      conditionsFrom (before ++ [e]) after

/-! ## Clauses -/

/-- Where the next clause begins, from a position on. -/
def nextClause? (tokens : List Token) (position : Nat) : Option Nat :=
  (tokens.find? fun t => position ≤ t.position && t.kind.opensClause).map Token.position

/-- The position lies in front of the next clause. -/
def isBefore (position : Nat) (clause : Option Nat) : Bool :=
  (clause.map fun c => decide (position < c)).getD true

/-- The entities between the end of a token and the next clause. -/
def behind (tokens : List Token) (es : List Entity) (t : Token) : List Entity :=
  let clause := nextClause? tokens t.stop
  es.filter fun e => t.stop ≤ e.position && isBefore e.position clause

/-- The token begins a grouping: by its kind, or as `by` behind an aggregate. -/
def beginsGrouping (before : List Token) (t : Token) : Bool :=
  t.kind == .groupWord || (t.is "by" && before.any fun u => u.kind == .aggregation)

/-- The tokens that begin a grouping, from some place on. -/
def groupingsFrom (before : List Token) : List Token → List Token
  | [] => []
  | t :: after =>
    (if beginsGrouping before t then [t] else []) ++ groupingsFrom (before ++ [t]) after

/-- The columns and tables behind the words that begin a grouping. -/
def groups (tokens : List Token) (es : List Entity) : List Mention :=
  let named := (groupingsFrom [] tokens).flatMap fun t =>
    (behind tokens es t).filter fun e => e.kind == .column || e.kind == .table
  (named.map Entity.mention).foldl addNew []

/-- What an entity behind the words of an order is ordered by. -/
def orderTarget (e : Entity) : Mention :=
  if e.kind == .aggregation then { column := some e.name } else e.mention

/-- The keys of the order behind a token. -/
def orderBehind (tokens : List Token) (es : List Entity) (t : Token) : List OrderPart :=
  let clause := nextClause? tokens t.stop
  let word := tokens.find? fun u =>
    u.kind == .sortDirection && t.stop ≤ u.position && isBefore u.position clause
  let direction := word.map fun u => Wording.direction u.normalized
  ((behind tokens es t).filter fun e => e.kind == .column || e.kind == .aggregation).map fun e =>
    ⟨orderTarget e, direction⟩

/-- The keys of the order. -/
def orders (tokens : List Token) (es : List Entity) : List OrderPart :=
  (tokens.filter fun t => t.kind == .orderWord).flatMap (orderBehind tokens es)

/-- An aggregate of the next column behind it, up to the next aggregate or clause. -/
def aggregationAt (tokens : List Token) (e : Entity) (after : List Entity) : AggregationPart :=
  let clause := nextClause? tokens (e.position + e.length)
  let window := after.takeWhile fun f =>
    f.kind != .aggregation && isBefore f.position clause
  let column := window.find? fun f => f.kind == .column
  let table := (window.takeWhile fun f => f.kind != .column).find? fun f => f.kind == .table
  { function := e.name
    column := (column.map Entity.name).getD "*"
    table := column.bind Entity.table <|> table.map Entity.name }

/-- The aggregates from some place on. -/
def aggregationsFrom (tokens : List Token) : List Entity → List AggregationPart
  | [] => []
  | e :: after =>
    (if e.kind == .aggregation then [aggregationAt tokens e after] else []) ++
      aggregationsFrom tokens after

/-- The kind of join in front of a word. -/
def joinKindBefore (before : Option Token) : String :=
  match before with
  | some t => if t.kind == .joinKind then t.normalized else "inner"
  | none => "inner"

/-- The kinds of the joins from some place on. -/
def joinKindsFrom (before : Option Token) : List Token → List String
  | [] => []
  | t :: after =>
    (if t.kind == .joinWord then [joinKindBefore before] else []) ++ joinKindsFrom (some t) after

/-- The joins: of the first two tables, for each word that asks for one. -/
def joinParts (tokens : List Token) : List String → List JoinPart
  | left :: right :: _ => (joinKindsFrom none tokens).map fun kind => ⟨kind, left, right⟩
  | _ => []

/-- The number behind a word that asks for a limit. -/
def limit? : List Token → Option Nat
  | s :: t :: rest =>
    let here :=
      if s.kind == .limitWord && t.kind == .number then
        (Text.real? t.normalized).map fun x => x.toUInt64.toNat
      else none
    here <|> limit? (t :: rest)
  | _ => none

/-- The components of a question with the tokens and entities given. -/
def ofQuestion (tokens : List Token) (es : List Entity) : Components :=
  let tables := mentionedTables es
  let conditions := conditionsFrom [] es
  let used := conditions.flatMap Prod.snd
  let spans := es.zipIdx.filterMap fun (e, i) =>
    if e.kind == .timeRange && !used.contains i then some e else none
  { columns := mentionedColumns es
    tables
    conditions := conditions.map Prod.fst
    aggregations := aggregationsFrom tokens es
    groupBy := groups tokens es
    orderBy := orders tokens es
    joins := joinParts tokens tables
    limit := limit? tokens
    distinct := tokens.any fun t => t.kind == .distinctWord
    windowDays := spans.findSome? (·.noted? "days")
    month := spans.findSome? (·.noted? "month") }

end Components

end AskSql
