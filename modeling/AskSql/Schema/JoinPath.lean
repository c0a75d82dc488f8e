import AskSql.Schema.Basic

/-!
# Join paths

The tables of a schema form a graph whose edges are its relationships, each usable in either
direction.  `Schema.joinPath?` searches it breadth first for a shortest path from some tables to
another one.  The queue of the search holds the tables that were met and not yet left, each with
the path on which it was met; a table is met at most once, so the search makes at most one round
for every starting table and every end of a relationship.
-/

namespace AskSql

/-- A step of a join path: from a column of a table that is there to a column of one that is
brought in. -/
structure Hop where
  fromTable : String
  fromColumn : String
  toTable : String
  toColumn : String
  deriving DecidableEq, Repr

namespace Schema

/-- The step along a relationship that leaves a table, if it is one of its ends. -/
def hopFrom? (s : Schema) (table : String) (r : Relationship) : Option Hop :=
  let hop (p q : Pointer) : Hop :=
    ⟨s.tableName p.table, p.column, s.tableName q.table, q.column⟩
  if sameName r.source.table table then some (hop r.source r.target)
  else if sameName r.target.table table then some (hop r.target r.source)
  else none

/-- The steps that leave a table, in the order of the relationships. -/
def hopsFrom (s : Schema) (table : String) : List Hop :=
  s.relationships.filterMap (s.hopFrom? table)

/-- What is left of a search after the steps from one table. -/
inductive Expansion where
  | found (path : List Hop)
  | pending (visited : List String) (queue : List (String × List Hop))

/-- Takes the steps from a table that was met on `path`. -/
def expand (target : String) (path : List Hop) (visited : List String)
    (queue : List (String × List Hop)) : List Hop → Expansion
  | [] => .pending visited queue
  | hop :: hops =>
    let key := Name.normalize hop.toTable
    if visited.contains key then expand target path visited queue hops
    else if key == target then .found (path ++ [hop])
    else expand target path (key :: visited) (queue ++ [(hop.toTable, path ++ [hop])]) hops

/-- Leaves the tables in the queue one after the other, at most `n` of them. -/
def search (s : Schema) (target : String) :
    Nat → List String → List (String × List Hop) → Option (List Hop)
  | 0, _, _ => none
  | _, _, [] => none
  | n + 1, visited, (table, path) :: queue =>
    match expand target path visited queue (s.hopsFrom table) with
    | .found path => some path
    | .pending visited queue => search s target n visited queue

/-- A shortest join path from one of the reachable tables to another table: no steps where the
table is reachable itself, none at all where no path leads to it. -/
def joinPath? (s : Schema) (reachable : List String) (target : String) : Option (List Hop) :=
  let key := Name.normalize target
  let start := reachable.map Name.normalize
  if start.contains key then some []
  else
    s.search key (reachable.length + 2 * s.relationships.length + 1) start
      (reachable.map fun t => (s.tableName t, []))

end Schema

end AskSql
