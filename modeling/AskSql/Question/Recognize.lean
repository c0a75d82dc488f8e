import AskSql.Decimal.Notation
import AskSql.Question.Entity
import AskSql.Question.Similarity
import AskSql.Question.Tokenize
import AskSql.Question.Wording
import AskSql.Settings.Basic
import AskSql.Text.Numeral

/-!
# Tokens with their meaning

A word is looked up among the names of the schema, first as it is and then by likeness.  Failing
that its neighbours may tell what it is, and failing that its kind.  Meanings that are not sure
enough are dropped.  A column of several tables belongs to the one that the question mentions; if
it mentions none of them, the column stays ambiguous.
-/

namespace AskSql

open Name (surfaceForms)

/-- A part of the schema that a word may mean. -/
structure Candidate where
  kind : EntityKind
  name : String
  table : Option String := none
  confidence : Float
  /-- Where the word comes from. -/
  found : String

/-- Words with what they may mean, in the order of the words. -/
abbrev Lexicon := List (String × List Candidate)

namespace Lexicon

/-- How sure a name is that stands as it is in the schema. -/
def exactConfidence : Float := 1.0

/-- How sure another form of a name is. -/
def formConfidence : Float := 0.95

/-- How sure a synonym is. -/
def synonymConfidence : Float := 0.9

/-- Common words and the names that they stand for where the schema has these. -/
def commonSynonyms : List (String × String) :=
  [("client", "customers"), ("clients", "customers"), ("buyer", "customers"),
    ("buyers", "customers"), ("purchase", "orders"), ("purchases", "orders"), ("sale", "orders"),
    ("sales", "orders"), ("item", "products"), ("items", "products"), ("goods", "products"),
    ("staff", "employees"), ("workers", "employees"), ("cost", "price"), ("spend", "amount"),
    ("mail", "email")]

/-- The two candidates are the same part of the schema. -/
def sameTarget (a b : Candidate) : Bool :=
  a.kind == b.kind && Text.sameFold a.name b.name && a.table == b.table

/-- Adds a meaning to a list that does not have it. -/
def addMeaning (cs : List Candidate) (c : Candidate) : List Candidate :=
  if cs.any (sameTarget · c) then cs else cs ++ [c]

/-- Adds a meaning to a word. -/
def add (l : Lexicon) (entry : String × Candidate) : Lexicon :=
  Text.upsert entry.1 (fun cs => addMeaning (cs.getD []) entry.2) l

/-- The words for a part of the schema: the forms of its name, the first of which is the name
itself, and its synonyms. -/
def entries (kind : EntityKind) (name : String) (table : Option String)
    (synonyms : List String) : List (String × Candidate) :=
  let forms := (surfaceForms name).mapIdx fun i form =>
    (form, ⟨kind, name, table, if i == 0 then exactConfidence else formConfidence, "exact"⟩)
  forms ++ synonyms.map fun y =>
    (Name.normalize y, ⟨kind, name, table, synonymConfidence, "synonym"⟩)

/-- The words for a table and its columns. -/
def tableEntries (t : Table) : List (String × Candidate) :=
  entries .table t.name none t.synonyms ++
    t.columns.flatMap fun c => entries .column c.name (some t.name) c.synonyms

/-- The word for a function. -/
def functionEntry (f : SchemaFunction) : String × Candidate :=
  (Name.normalize f.name, ⟨.function, f.name, none, exactConfidence, "exact"⟩)

/-- What a name of a table or of columns may mean. -/
def targets (s : Schema) (name : String) : List Candidate :=
  match s.findTable? name with
  | some t => [⟨.table, t.name, none, synonymConfidence, "synonym"⟩]
  | none =>
    (s.tablesWithColumn name).filterMap fun t => (t.column? name).map fun c =>
      ⟨.column, c.name, some t.name, synonymConfidence, "synonym"⟩

/-- Adds a synonym for a name, unless the word has a meaning already. -/
def addSynonym (s : Schema) (l : Lexicon) (entry : String × String) : Lexicon :=
  let key := Name.normalize entry.1
  let meant := targets s entry.2
  if (l.lookup key).isSome || meant.isEmpty then l
  else Text.upsert key (fun _ => meant) l

/-- The words for a schema.  Synonyms of the settings come before the common ones. -/
def ofSchema (s : Schema) (synonyms : List (String × String)) : Lexicon :=
  let declared := s.tables.flatMap tableEntries ++ s.functions.map functionEntry
  (synonyms ++ commonSynonyms).foldl (addSynonym s) (declared.foldl add [])

/-- The word most like another one, with how alike they are: the first of those that are as
alike. -/
def closest? (l : Lexicon) (threshold : Float) (word : String) :
    Option (String × List Candidate × Float) :=
  l.foldl (fun best (key, cs) =>
    let score := Similarity.similarity word key
    if threshold ≤ score && (best.map fun (_, _, s) => decide (s < score)).getD true then
      some (key, cs, score)
    else best) none

end Lexicon

namespace Entity

/-- The candidates of a kind. -/
def ofKind (kind : EntityKind) (cs : List Candidate) : List Candidate :=
  cs.filter fun c => c.kind == kind

/-- The kind that a word means, and the candidates of this kind: tables before columns before
functions. -/
def strongestKind (cs : List Candidate) : EntityKind × List Candidate :=
  let tables := ofKind .table cs
  let columns := ofKind .column cs
  if !tables.isEmpty then (.table, tables)
  else if !columns.isEmpty then (.column, columns)
  else (.function, ofKind .function cs)

/-- The surest candidate, the first of those that are as sure. -/
def surest? : List Candidate → Option Candidate
  | [] => none
  | c :: cs => some (cs.foldl (fun a b => if b.confidence ≤ a.confidence then a else b) c)

/-- The tables of some columns, each once. -/
def owners (cs : List Candidate) : List String :=
  (cs.filterMap Candidate.table).foldl
    (fun ts t => if ts.any (Text.sameFold · t) then ts else ts ++ [t]) []

/-- The token means the surest of some candidates.  A column of several tables has none yet. -/
def ofCandidates (t : Token) (cs : List Candidate) (scale : Float) : Entity :=
  let (kind, group) := strongestKind cs
  match surest? group with
  | none => ofToken t kind 0.0 "exact"
  | some best =>
    let e :=
      (ofToken t kind (Decimal.smaller (best.confidence * scale) 1.0) best.found).named best.name
    if kind == .column then
      match owners group with
      | [table] => { e with table := some table }
      | tables => e.withNote "candidates" (String.intercalate "," tables)
    else e

/-- The tables that a column may belong to. -/
def candidates (e : Entity) : List String :=
  ((e.note? "candidates").map (Text.split (· == ','))).getD []

/-- The meaning of a word that is a name of the schema. -/
def ofName? (l : Lexicon) (t : Token) : Option Entity :=
  let small := Text.lowercase t.text
  ([t.normalized, small, Name.wordsToSnake small].findSome? fun key => l.lookup key).map fun cs =>
    ofCandidates t cs 1.0

/-- The meaning of a word that is like a name of the schema. -/
def ofLikeName? (l : Lexicon) (threshold : Float) (t : Token) : Option Entity :=
  if t.normalized.length < 3 then none
  else
    (l.closest? threshold t.normalized).map fun (key, cs, score) =>
      ((ofCandidates t cs score).withNote "source" "fuzzy").withNote "matched" key

/-- The last token that is no determiner. -/
def lastWord? (before : List Token) : Option Token :=
  before.reverse.find? fun t => t.kind != .determiner

/-- The meaning of a word by its neighbours: a table behind `from`, a column behind a command or in
front of a comparison. -/
def ofNeighbours? (before : List Token) (t : Token) (after : List Token) : Option Entity :=
  let last := lastWord? before
  if last.any (·.is "from") then some (ofToken t .table 0.5 "positional")
  else if last.any (·.kind == .command) || after.head?.any (·.kind == .comparison) then
    some (ofToken t .column 0.45 "positional")
  else none

/-- The days of a span of time that is named by its unit, and the months if it has such. -/
def namedSpan? (wording : String) : Option (Nat × Option Nat) :=
  let ends := Name.endsIn wording
  if wording == "today" then some (0, none)
  else if wording == "yesterday" then some (1, none)
  else if ends "week" then some (7, none)
  else if ends "month" then some (30, some 1)
  else if ends "quarter" then some (90, some 3)
  else if ends "year" || wording == "ytd" || wording == "year to date" then some (365, none)
  else if ends "day" then some (1, none)
  else none

/-- A word without the `s` at its end. -/
def dropPlural (word : String) : String :=
  String.ofList (word.toList.reverse.dropWhile (· == 's')).reverse

/-- The number and the unit of a span of time that gives both. -/
def countedSpan? (wording : String) : Option (Nat × String) :=
  match Text.words wording with
  | [_, count, unit] => (Text.natural? 32 count).map fun n => (n, unit)
  | _ => none

/-- A span of time with what is known of it: days, months, or the number of a month. -/
def withSpan (e : Entity) (wording : String) : Entity :=
  match countedSpan? wording, Wording.month? wording with
  | some (n, unit), _ =>
    let e := e.withNote "days" (toString (Wording.daysOf n (dropPlural unit)))
    if "month".toList.isPrefixOf unit.toList then e.withNote "months" (toString n) else e
  | none, some month => e.withNote "month" (toString month)
  | none, none =>
    match namedSpan? wording with
    | some (days, months) =>
      let e := e.withNote "days" (toString days)
      (months.map fun n => e.withNote "months" (toString n)).getD e
    | none => e

/-- The meaning of a token by its kind. -/
def ofTokenKind? (t : Token) : Option Entity :=
  let entity (kind : EntityKind) (name : String) := (ofToken t kind t.confidence "kind").named name
  let n := t.normalized
  match t.kind with
  | .number => some ((entity .number n).withNote "value" n)
  | .quoted => some ((entity .string n).withNote "value" (unquoteText t.text))
  | .date => some ((entity .date n).withNote "value" n)
  | .temporal => some ((entity .timeRange n).withSpan n)
  | .boolean => some (entity .boolean (if n == "false" then "false" else "true"))
  | .null => some (entity .null "null")
  | .aggregation => (Wording.aggregate? n).map (entity .aggregation)
  | .comparison => (Wording.comparison? n).map (entity .operator)
  | .logical => some (entity .operator (Wording.logical n))
  | _ => none

/-- The meaning of a token between others. -/
def recognize? (l : Lexicon) (threshold : Float) (before : List Token) (t : Token)
    (after : List Token) : Option Entity :=
  if t.kind.isNameLike then
    ofName? l t <|> ofLikeName? l threshold t <|> ofNeighbours? before t after <|> ofTokenKind? t
  else ofTokenKind? t

/-- The table that an entity mentions. -/
def mentionedTable? (e : Entity) : Option String :=
  match e.kind with
  | .table => e.resolved
  | .column => e.table
  | _ => none

/-- The tables that some entities mention, in small letters, each once. -/
def context (es : List Entity) : List String :=
  (es.filterMap mentionedTable?).foldl (fun ts t =>
    let key := Text.lower t
    if ts.contains key then ts else ts ++ [key]) []

/-- Finds the table of a column among those mentioned, or marks the column as ambiguous. -/
def settle (mentioned : List String) (penalty : Float) (e : Entity) : Entity :=
  let tables := e.candidates
  if e.kind != .column || e.table.isSome || tables.isEmpty then e
  else
    match mentioned.findSome? fun t => tables.find? (Text.sameFold · t) with
    | some table => { e with table := some table }.withNote "resolved_by" "context"
    | none =>
      { e with ambiguous := true, confidence := e.confidence * (1.0 - penalty) }.withNote
        "pre_ambiguity_confidence" (Decimal.fixed 4 e.confidence)

/-- The meanings of the tokens from some place on. -/
def recognizeFrom (l : Lexicon) (threshold : Float) (before : List Token) :
    List Token → List (Option Entity)
  | [] => []
  | t :: after =>
    recognize? l threshold before t after :: recognizeFrom l threshold (before ++ [t]) after

end Entity

/-- The entities of some tokens. -/
def recognize (s : Schema) (settings : RecognizerSettings) (tokens : List Token) : List Entity :=
  let lexicon := Lexicon.ofSchema s settings.synonyms
  let found := (Entity.recognizeFrom lexicon settings.fuzzyThreshold [] tokens).filterMap id
  let sure := found.filter fun e => decide (settings.minConfidence < e.confidence)
  sure.map (Entity.settle (Entity.context sure) settings.ambiguityPenalty)

end AskSql
