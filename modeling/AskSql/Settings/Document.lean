import AskSql.Json.Decode
import AskSql.Json.Reader
import AskSql.Settings.Basic
import AskSql.Text.Sorted

/-!
# Settings as documents

The written form of the settings as a JSON document.  A document may leave out any setting, which
then has its usual value; of synonyms for one word the last one counts.
-/

namespace AskSql

open Json (Decoder field)

namespace Dialect

/-- The dialects by their names in documents. -/
def keywords : List (String × Dialect) :=
  [("sqlite", sqlite), ("postgres", postgres), ("mysql", mySql), ("ansi", ansi)]

end Dialect

namespace RecognizerSettings

/-- Words and what they stand for, in the order of the words. -/
def synonyms? : Decoder (List (String × String))
  | o, .object members => do
    let o ← o.inner
    let pairs ← members.mapM fun (name, j) => do return (name, ← Json.string? o j)
    return pairs.foldl (fun acc (word, meaning) => Text.upsert word (fun _ => meaning) acc) []
  | _, _ => none

/-- The settings as a document. -/
def toJson (s : RecognizerSettings) : Json :=
  .object (field "fuzzy_threshold" (.float s.fuzzyThreshold) ++
    field "min_confidence" (.float s.minConfidence) ++
    field "ambiguity_penalty" (.float s.ambiguityPenalty) ++
    field "synonyms" (.object (s.synonyms.map fun (name, v) => (name, .text v))))

/-- The settings that a document is. -/
def ofJson? : Decoder RecognizerSettings :=
  Json.record? ["fuzzy_threshold", "min_confidence", "ambiguity_penalty", "synonyms"]
    fun o parts => do
      let [fuzzy, confidence, penalty, synonyms] := parts | none
      let usual : RecognizerSettings := {}
      return {
        fuzzyThreshold := ← Json.optional? Json.float? usual.fuzzyThreshold o fuzzy
        minConfidence := ← Json.optional? Json.float? usual.minConfidence o confidence
        ambiguityPenalty := ← Json.optional? Json.float? usual.ambiguityPenalty o penalty
        synonyms := ← Json.optional? synonyms? usual.synonyms o synonyms }

end RecognizerSettings

namespace OptimizerSettings

/-- The settings as a document. -/
def toJson (s : OptimizerSettings) : Json :=
  .object (field "enable_advanced" (.bool s.enableAdvanced) ++
    field "max_exhaustive_joins" (.nat s.maxExhaustiveJoins) ++
    field "max_permutations" (.nat s.maxPermutations) ++
    field "cache_capacity" (.nat s.cacheCapacity) ++
    field "frequent_query_threshold" (.nat s.frequentQueryThreshold) ++
    field "page_bytes" (.nat s.pageBytes) ++
    field "default_row_count" (.nat s.defaultRowCount) ++
    field "cpu_cost" (.float s.cpuCost) ++
    field "filter_cost_per_condition" (.float s.filterCostPerCondition) ++
    field "hash_join_factor" (.float s.hashJoinFactor) ++
    field "large_table_rows" (.nat s.largeTableRows) ++
    field "partition_rows" (.nat s.partitionRows))

/-- The names of the settings. -/
def partNames : List String :=
  ["enable_advanced", "max_exhaustive_joins", "max_permutations", "cache_capacity",
    "frequent_query_threshold", "page_bytes", "default_row_count", "cpu_cost",
    "filter_cost_per_condition", "hash_join_factor", "large_table_rows", "partition_rows"]

/-- The settings that a document is. -/
def ofJson? : Decoder OptimizerSettings :=
  Json.record? partNames fun o parts => do
    let [advanced, joins, permutations, capacity, threshold, page, rowCount, cpu, filter, hash,
      large, partition] := parts | none
    let usual : OptimizerSettings := {}
    let nat (bits : Nat) (usual : Nat) := Json.optional? (Json.nat? bits) usual o
    let float (usual : Float) := Json.optional? Json.float? usual o
    return {
      enableAdvanced := ← Json.optional? Json.bool? usual.enableAdvanced o advanced
      maxExhaustiveJoins := ← nat 64 usual.maxExhaustiveJoins joins
      maxPermutations := ← nat 64 usual.maxPermutations permutations
      cacheCapacity := ← nat 64 usual.cacheCapacity capacity
      frequentQueryThreshold := ← nat 64 usual.frequentQueryThreshold threshold
      pageBytes := ← nat 32 usual.pageBytes page
      defaultRowCount := ← nat 64 usual.defaultRowCount rowCount
      cpuCost := ← float usual.cpuCost cpu
      filterCostPerCondition := ← float usual.filterCostPerCondition filter
      hashJoinFactor := ← float usual.hashJoinFactor hash
      largeTableRows := ← nat 64 usual.largeTableRows large
      partitionRows := ← nat 64 usual.partitionRows partition }

end OptimizerSettings

namespace RenderSettings

/-- The settings as a document. -/
def toJson (s : RenderSettings) : Json :=
  .object (field "pretty" (.bool s.pretty) ++ field "parameterized" (.bool s.parameterized))

/-- The settings that a document is. -/
def ofJson? : Decoder RenderSettings :=
  Json.record? ["pretty", "parameterized"] fun o parts => do
    let [pretty, parameterized] := parts | none
    return {
      pretty := ← Json.optional? Json.bool? false o pretty
      parameterized := ← Json.optional? Json.bool? false o parameterized }

end RenderSettings

namespace Settings

/-- The settings as a document. -/
def toJson (s : Settings) : Json :=
  .object (field "recognizer" s.recognizer.toJson ++ field "optimizer" s.optimizer.toJson ++
    field "generator" s.render.toJson ++ field "default_dialect" (.text s.defaultDialect.name) ++
    field "default_table" (Json.orNull Json.text s.defaultTable))

/-- The settings that a document is. -/
def ofJson? : Decoder Settings :=
  Json.record? ["recognizer", "optimizer", "generator", "default_dialect", "default_table"]
    fun o parts => do
      let [recognizer, optimizer, render, dialect, table] := parts | none
      return {
        recognizer := ← Json.optional? RecognizerSettings.ofJson? {} o recognizer
        optimizer := ← Json.optional? OptimizerSettings.ofJson? {} o optimizer
        render := ← Json.optional? RenderSettings.ofJson? {} o render
        defaultDialect := ← Json.optional? (Json.choice? Dialect.keywords) .sqlite o dialect
        defaultTable := ← Json.optional? (Json.nullable? Json.string?) none o table }

/-- The settings that a text holds, if they are in range. -/
def ofText (text : String) : Except Failure Settings := do
  let some settings := (Json.parse? text).bind (ofJson? (.direct Json.nestingLimit))
    | throw (.config Failure.unreadableDocument (some "config json"))
  settings.check
  return settings

end Settings

end AskSql
