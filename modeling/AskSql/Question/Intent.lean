import AskSql.Decimal.Whole
import AskSql.Question.Component

/-!
# What a question asks for

Each rule speaks for an intent with a weight, of which the share counts that its criteria are met.
An intent scores as much as its strongest rule.  The primary intent is the one with the highest
score, save for two exceptions, and the score with the confidence of the entities makes up the
confidence of the classification.
-/

namespace AskSql

/-- What a question may ask for. -/
inductive Intent where
  | retrieve | filter | sort | limit | count | sum | average | minMax | group | join | subquery
  | namedSubquery | window | distinct
  deriving DecidableEq, Repr

namespace Intent

/-- The intents in their order. -/
def all : List Intent :=
  [retrieve, filter, sort, limit, count, sum, average, minMax, group, join, subquery,
    namedSubquery, window, distinct]

/-- The place of an intent in the order. -/
def rank (i : Intent) : Nat :=
  (all.findIdx? (· == i)).getD 0

/-- It asks for an aggregate. -/
def isAggregation : Intent → Bool
  | count | sum | average | minMax => true
  | _ => false

/-- It asks for more than one plain query can give. -/
def isAdvanced : Intent → Bool
  | subquery | namedSubquery | window => true
  | _ => false

end Intent

/-- What a question asks to be done with the data. -/
inductive QueryType where
  | select | insert | update | delete | create
  deriving DecidableEq, Repr

/-- How much is asked for at once. -/
inductive Complexity where
  | simple | moderate | complex | advanced
  deriving DecidableEq, Repr

/-- The complexity of a number of points. -/
def Complexity.ofPoints (n : Nat) : Complexity :=
  if n ≤ 3 then simple else if n ≤ 7 then moderate else if n ≤ 12 then complex else advanced

/-- What a rule looks for. -/
inductive Criterion where
  | token (kind : TokenKind)
  /-- A token in its normal form, or words inside of a token. -/
  | keyword (wording : String)
  | entity (kind : EntityKind)
  /-- At least three kinds of clauses. -/
  | manyClauses
  /-- At least two tables. -/
  | manyTables
  /-- The word `by` behind an aggregate. -/
  | aggregateBy

/-- A rule that speaks for an intent. -/
structure IntentRule where
  intent : Intent
  weight : Float
  criteria : List Criterion

/-- The rules. -/
def IntentRule.all : List IntentRule :=
  [⟨.retrieve, 0.7, [.token .command]⟩,
    ⟨.retrieve, 0.5, [.entity .table]⟩,
    ⟨.filter, 0.8, [.token .filterWord]⟩,
    ⟨.filter, 0.85, [.token .comparison]⟩,
    ⟨.filter, 0.95, [.token .filterWord, .token .comparison]⟩,
    ⟨.filter, 0.7, [.token .temporal]⟩,
    ⟨.filter, 0.6, [.entity .string]⟩,
    ⟨.sort, 0.9, [.token .orderWord]⟩,
    ⟨.sort, 0.95, [.token .orderWord, .token .sortDirection]⟩,
    ⟨.sort, 0.6, [.token .sortDirection]⟩,
    ⟨.limit, 0.9, [.token .limitWord, .token .number]⟩,
    ⟨.count, 0.9, [.keyword "count"]⟩,
    ⟨.count, 0.95, [.keyword "how many"]⟩,
    ⟨.count, 0.85, [.keyword "number of"]⟩,
    ⟨.sum, 0.9, [.keyword "sum"]⟩,
    ⟨.sum, 0.8, [.keyword "total"]⟩,
    ⟨.sum, 0.6, [.keyword "revenue"]⟩,
    ⟨.average, 0.9, [.keyword "average"]⟩,
    ⟨.average, 0.85, [.keyword "mean"]⟩,
    ⟨.minMax, 0.9, [.keyword "minimum"]⟩,
    ⟨.minMax, 0.9, [.keyword "maximum"]⟩,
    ⟨.group, 0.9, [.token .groupWord]⟩,
    ⟨.group, 0.75, [.aggregateBy]⟩,
    ⟨.join, 0.9, [.token .joinWord]⟩,
    ⟨.join, 0.95, [.token .joinKind, .token .joinWord]⟩,
    ⟨.join, 0.6, [.manyTables]⟩,
    ⟨.subquery, 0.85, [.token .subqueryWord]⟩,
    ⟨.subquery, 0.9, [.token .subqueryWord, .manyClauses]⟩,
    ⟨.namedSubquery, 0.95, [.token .namedSubqueryWord]⟩,
    ⟨.window, 0.9, [.token .windowWord]⟩,
    ⟨.distinct, 0.9, [.token .distinctWord]⟩]

/-- An intent with its score. -/
structure IntentScore where
  intent : Intent
  score : Float
  deriving Repr

/-- What is made of a question. -/
structure Classification where
  primary : Intent
  /-- The intents with their scores, the best first. -/
  intents : List IntentScore
  queryType : QueryType
  components : Components
  complexity : Complexity
  confidence : Float

namespace Classification

/-- The word stands for itself, or stands inside of a token if it is several words. -/
def meetsKeyword (wording : String) (t : Token) : Bool :=
  t.is wording || (wording.toList.contains ' ' && containsText t.normalized wording)

/-- The token is `by` and begins a grouping, from some place on. -/
def hasGroupingBy (before : List Token) : List Token → Bool
  | [] => false
  | t :: after =>
    (t.is "by" && Components.beginsGrouping before t) || hasGroupingBy (before ++ [t]) after

/-- The number of kinds of clauses that some tokens open. -/
def clauseKinds (tokens : List Token) : Nat :=
  (((tokens.map Token.kind).filter TokenKind.opensClause).foldl Components.addNew []).length

/-- The question meets a criterion. -/
def meets (tokens : List Token) (es : List Entity) : Criterion → Bool
  | .token kind => tokens.any fun t => t.kind == kind
  | .keyword wording => tokens.any (meetsKeyword wording)
  | .entity kind => es.any fun e => e.kind == kind
  | .manyClauses => 3 ≤ clauseKinds tokens
  | .manyTables => 2 ≤ (Components.mentionedTables es).length
  | .aggregateBy => hasGroupingBy [] tokens

/-- The score that a rule gives, if any of its criteria is met. -/
def ruleScore? (tokens : List Token) (es : List Entity) (r : IntentRule) : Option IntentScore :=
  let met := r.criteria.countP (meets tokens es)
  if met == 0 then none
  else some ⟨r.intent, Decimal.ofNat met / Decimal.ofNat r.criteria.length * r.weight⟩

/-- Adds a score; of two scores of an intent the higher one counts. -/
def addScore (found : IntentScore) : List IntentScore → List IntentScore
  | [] => [found]
  | s :: rest =>
    if s.intent == found.intent then { s with score := Decimal.larger s.score found.score } :: rest
    else s :: addScore found rest

/-- The first score is the higher one; of two equal scores that of the earlier intent. -/
def outranks (a b : IntentScore) : Bool :=
  b.score < a.score || (a.score == b.score && decide (a.intent.rank ≤ b.intent.rank))

/-- The intents of a question with their scores, the best first. -/
def scores (tokens : List Token) (es : List Entity) : List IntentScore :=
  ((IntentRule.all.filterMap (ruleScore? tokens es)).foldl (fun acc s => addScore s acc)
    []).mergeSort outranks

/-- Some score is that of the intent. -/
def scored (scores : List IntentScore) (i : Intent) : Bool :=
  scores.any fun s => s.intent == i

/-- The primary intent: the best one, save that a count of groups is a grouping, and that a join is
more than an aggregate of no high score. -/
def primaryOf (scores : List IntentScore) : Intent :=
  match scores with
  | [] => .retrieve
  | top :: _ =>
    let intent := if top.intent == .count && scored scores .group then .group else top.intent
    if intent.isAggregation && scored scores .join && top.score ≤ 0.8 then .join else intent

/-- What a word asks to be done. -/
def queryTypeOf? (t : Token) : Option QueryType :=
  if t.kind != .writeWord then none
  else
    match (Text.words t.normalized).head? with
    | some w =>
      if w == "insert" || w == "add" then some .insert
      else if w == "update" || w == "modify" then some .update
      else if w == "delete" || w == "remove" || w == "drop" then some .delete
      else if w == "create" then some .create
      else none
    | none => none

/-- The complexity of a question. -/
def complexityOf (c : Components) (scores : List IntentScore) : Complexity :=
  .ofPoints <| c.tables.length + 2 * c.joins.length + (if c.aggregations.isEmpty then 0 else 2) +
    (if c.groupBy.isEmpty then 0 else 2) + 3 * scores.countP (·.intent.isAdvanced) +
    c.conditions.length

/-- The mean confidence of some entities; one half where there are none. -/
def meanConfidence (es : List Entity) : Float :=
  if es.isEmpty then 0.5
  else es.foldl (fun sum e => sum + e.confidence) 0.0 / Decimal.ofNat es.length

/-- Some intent is this one. -/
def hasIntent (c : Classification) (i : Intent) : Bool :=
  scored c.intents i

/-- The score of an intent. -/
def score (c : Classification) (i : Intent) : Float :=
  ((c.intents.find? fun s => s.intent == i).map IntentScore.score).getD 0.0

end Classification

/-- What is made of a question with the tokens and entities given. -/
def classify (tokens : List Token) (es : List Entity) : Classification :=
  let scores := Classification.scores tokens es
  let components := Components.ofQuestion tokens es
  let top := (scores.head?.map IntentScore.score).getD 0.0
  { primary := Classification.primaryOf scores
    intents := scores
    queryType := (tokens.findSome? Classification.queryTypeOf?).getD .select
    components
    complexity := Classification.complexityOf components scores
    confidence := 0.6 * top + 0.4 * Classification.meanConfidence es }

end AskSql
