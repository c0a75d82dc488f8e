import AskSql.Query.Basic

/-!
# Complete groupings

Next to an aggregate every plain column has to be a key of the grouping, and every key is selected.
`Query.completeGrouping` adds what is missing; `Query.dedupGrouping` drops keys that stand twice.
-/

namespace AskSql

/-- A changed query with a note on what was changed; without a note nothing was. -/
structure Reshaped where
  query : Query
  note : Option String

/-- The notes on some changes, if there are any. -/
def joinNotes (between : String) (notes : List String) : Option String :=
  if notes.isEmpty then none else some (String.intercalate between notes)

namespace Query

/-- The columns that the query selects as they are. -/
def plainColumns (q : Query) : List Reference :=
  q.items.filterMap Item.column?

/-- The plain columns next to an aggregate that are no keys of the grouping. -/
def ungrouped (q : Query) : List Reference :=
  if q.hasAggregates then
    (q.plainColumns.filter fun c => !c.isStar && !q.groupBy.any (·.sameColumn c)).map
      Reference.unlabelled
  else []

/-- The keys of the completed grouping. -/
def completedKeys (q : Query) : List Reference :=
  q.groupBy ++ q.ungrouped

/-- The keys of the completed grouping that the query does not select. -/
def unselectedKeys (q : Query) : List Reference :=
  (q.completedKeys.filter fun g => !q.plainColumns.any (·.sameColumn g)).map
    Reference.unlabelled

/-- Puts items in front of the first aggregate, or at the end. -/
def insertItems (items more : List Item) : List Item :=
  (items.takeWhile fun i => !i.isAggregate) ++ more ++
    items.dropWhile fun i => !i.isAggregate

/-- Groups by the plain columns next to aggregates and selects all keys. -/
def completeGrouping (q : Query) : Reshaped where
  query :=
    { q with
      groupBy := q.completedKeys
      items := insertItems q.items (q.unselectedKeys.map .column) }
  note := joinNotes ", " <|
    (q.ungrouped.map fun c => "grouped " ++ c.path) ++
      q.unselectedKeys.map fun c => "projected " ++ c.path

/-- Adds a key to a grouping that does not have it. -/
def addKey (keys : List Reference) (key : Reference) : List Reference :=
  if keys.any (·.sameColumn key) then keys else keys ++ [key]

/-- The keys of the grouping, each once. -/
def distinctKeys (q : Query) : List Reference :=
  q.groupBy.foldl addKey []

/-- Drops keys that stand earlier in the grouping. -/
def dedupGrouping (q : Query) : Reshaped where
  query := { q with groupBy := q.distinctKeys }
  note :=
    let removed := q.groupBy.length - q.distinctKeys.length
    if removed == 0 then none
    else some ("removed " ++ toString removed ++ " duplicate grouping keys")

end Query

end AskSql
