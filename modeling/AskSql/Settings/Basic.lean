import AskSql.Render.Dialect

/-!
# Settings

The thresholds of recognition, the limits and cost constants of optimization, and the options of
rendering.  `Settings.check` refuses values outside of their range, the first one in the order in
which the settings are listed.
-/

namespace AskSql

/-- Settings of the recognition of entities. -/
structure RecognizerSettings where
  /-- The least similarity at which a word is taken for a misspelt name. -/
  fuzzyThreshold : Float := 0.7
  /-- Entities at or below this confidence are dropped. -/
  minConfidence : Float := 0.3
  /-- The share of confidence that an ambiguous column loses. -/
  ambiguityPenalty : Float := 0.3
  /-- Further words for tables and columns, in the order of the words. -/
  synonyms : List (String × String) := []

/-- Settings of the optimizer. -/
structure OptimizerSettings where
  /-- Use the steps that go by cost. -/
  enableAdvanced : Bool := true
  /-- All orders of the joins are tried below this number of joins. -/
  maxExhaustiveJoins : Nat := 5
  /-- At most so many orders are tried. -/
  maxPermutations : Nat := 5040
  /-- The number of results that are kept. -/
  cacheCapacity : Nat := 256
  /-- The number of requests from which on a query counts as frequent. -/
  frequentQueryThreshold : Nat := 3
  /-- The size of a page in bytes. -/
  pageBytes : Nat := 8192
  /-- The number of rows of a table for which none is known. -/
  defaultRowCount : Nat := 1000
  /-- The cost of handling a row. -/
  cpuCost : Float := 0.01
  /-- The cost of testing a condition. -/
  filterCostPerCondition : Float := 1.0
  /-- The cost of a hashed row against that of a row handled. -/
  hashJoinFactor : Float := 1.5
  /-- The number of rows from which on an index is advised. -/
  largeTableRows : Nat := 10000
  /-- The number of rows from which on a partition by date is advised. -/
  partitionRows : Nat := 1000000

/-- Settings of the statements that are written. -/
structure RenderSettings where
  /-- Each clause stands on a line of its own. -/
  pretty : Bool := false
  /-- Placeholders stand for the values. -/
  parameterized : Bool := false

/-- All settings. -/
structure Settings where
  recognizer : RecognizerSettings := {}
  optimizer : OptimizerSettings := {}
  render : RenderSettings := {}
  /-- The dialect where none is asked for. -/
  defaultDialect : Dialect := .sqlite
  /-- The table to start from where a question names none. -/
  defaultTable : Option String := none

namespace Settings

/-- Settings to develop with: few results are kept and statements take several lines. -/
def development : Settings where
  optimizer := { cacheCapacity := 32 }
  render := { pretty := true }

/-- Settings to run with: many results are kept and statements take parameters. -/
def production : Settings where
  optimizer := { cacheCapacity := 4096, maxExhaustiveJoins := 4 }
  render := { parameterized := true }
  defaultDialect := .postgres

/-- A share lies between nothing and all. -/
def checkShare (name : String) (x : Float) : Except Failure Unit :=
  if 0 ≤ x && x ≤ 1 then .ok ()
  else .error (.config (name ++ " must be within [0, 1], got " ++ Decimal.positional x) none)

/-- A number is not zero. -/
def checkPositive (name : String) (n : Nat) (wish : String) : Except Failure Unit :=
  if n == 0 then .error (.config (name ++ " must be " ++ wish) none) else .ok ()

/-- Refuses settings outside of their range. -/
def check (s : Settings) : Except Failure Unit := do
  checkShare "recognizer.fuzzy_threshold" s.recognizer.fuzzyThreshold
  checkShare "recognizer.min_confidence" s.recognizer.minConfidence
  checkShare "recognizer.ambiguity_penalty" s.recognizer.ambiguityPenalty
  let o := s.optimizer
  checkPositive "optimizer.max_exhaustive_joins" o.maxExhaustiveJoins "at least 1"
  checkPositive "optimizer.max_permutations" o.maxPermutations "at least 1"
  checkPositive "optimizer.cache_capacity" o.cacheCapacity "at least 1"
  checkPositive "optimizer.page_bytes" o.pageBytes "positive"
  if o.cpuCost ≤ 0 || o.filterCostPerCondition < 0 || o.hashJoinFactor ≤ 0 then
    throw (.config "optimizer cost constants must be positive" none)

end Settings

end AskSql
