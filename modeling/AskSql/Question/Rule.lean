import AskSql.Question.Token
import AskSql.Text.Pattern

/-!
# The words that questions are made of

Each rule gives the wordings of one kind of token.  Of several rules that match, the one with the
longest piece counts, and the earlier of two that match as much.
-/

namespace AskSql

open Text (Pattern)

/-- The wordings of a kind of token. -/
structure TokenRule where
  kind : TokenKind
  confidence : Float
  pattern : Pattern

namespace TokenRule

open Text.Pattern

/-- A rule whose wordings end where a word ends. -/
def ofWords (kind : TokenKind) (confidence : Float) (wordings : Pattern) : TokenRule :=
  ⟨kind, confidence, .seq wordings .edge⟩

/-- A rule that lists its wordings. -/
def ofList (kind : TokenKind) (confidence : Float) (wordings : List String) : TokenRule :=
  ofWords kind confidence (phrases wordings)

/-- A word with or without an `s`. -/
def perhapsPlural (s : String) : Pattern :=
  .seq (word s) (optional (word "s"))

/-- A text between two marks; between apostrophes, two of them stand for one. -/
def quotedText : Pattern :=
  let mark (c : Char) := Pattern.one (· == c)
  let other (c : Char) := Pattern.one (· != c)
  .alt
    (ofSeq [mark '\'', .repeated (.alt (other '\'') (.seq (mark '\'') (mark '\''))), mark '\''])
    (ofSeq [mark '"', .repeated (other '"'), mark '"'])

/-- A day as year, month and day. -/
def calendarDay : Pattern :=
  let digits (n : Nat) := (Pattern.one Text.isDecimalDigit).times n
  ofSeq [digits 4, word "-", digits 2, word "-", digits 2]

/-- So many units of time before today. -/
def pastSpan : Pattern :=
  ofSeq [phrases ["last", "past", "previous", "trailing"], blanks, digits, blanks,
    ofAlt (["day", "week", "month", "year"].map perhapsPlural)]

/-- A unit of time up to today, or the one before. -/
def namedSpan : Pattern :=
  .alt
    (ofSeq [phrases ["last", "this", "previous", "past", "current"], blanks,
      phrases ["day", "week", "month", "quarter", "year"]])
    (phrases ["today", "yesterday", "year to date", "ytd"])

/-- A number without sign. -/
def numeral : Pattern :=
  .seq digits (optional (.seq (word ".") digits))

/-- A comparison of size. -/
def sizeComparison (words : List String) : Pattern :=
  ofSeq [optional (phrase "is "), phrases words, phrase " than",
    optional (phrase " or equal to")]

/-- The wordings of comparisons. -/
def comparisonWords : Pattern :=
  ofAlt [
    sizeComparison ["greater", "more", "higher", "bigger", "larger"],
    sizeComparison ["less", "fewer", "lower", "smaller"],
    phrases ["at least", "at most"],
    .seq (phrase "not equal") (optional (phrase " to")),
    .seq (perhapsPlural "equal") (optional (phrase " to")),
    phrase "is not",
    perhapsPlural "exceed",
    phrases ["above", "below", "between", "not like", "like", "contains", "starts with",
      "ends with", "not in", "after", "since", "before", "over", "under"]]

/-- The wordings of a filter. -/
def filterWords : Pattern :=
  ofAlt [
    phrases ["where", "whose", "having"],
    ofSeq [phrases ["that", "which", "who"], blanks,
      phrases ["have", "has", "are", "is", "were", "was"]],
    phrases ["filtered by", "filter by", "with", "only"]]

/-- The wordings of changes to the data. -/
def writeWords : Pattern :=
  ofAlt [
    phrase "insert",
    ofSeq [phrase "add ", optional (phrase "a "), phrase "new"],
    phrases ["update", "modify", "delete", "remove", "create", "drop"]]

/-- The wordings of subqueries. -/
def subqueryWords : Pattern :=
  ofAlt [
    phrases ["not exists", "exists", "above average", "below average"],
    ofSeq [phrase "than ", optional (phrase "the "), phrase "average"],
    phrases ["any of", "all of", "never"]]

/-- The wordings of computations over neighbouring rows. -/
def windowWords : Pattern :=
  ofAlt [
    phrase "dense rank",
    .seq (word "rank") (optional (phrases ["ed", "ing"])),
    phrases ["row number", "running total", "cumulative", "moving average"],
    ofSeq [word "partition", optional (word "ed"), phrase " by"],
    phrases ["percentile", "ntile"]]

/-- All rules. -/
def all : List TokenRule := [
  ⟨.quoted, 1.0, quotedText⟩,
  ofWords .date 0.95 calendarDay,
  ofWords .temporal 0.95 pastSpan,
  ofWords .temporal 0.9 namedSpan,
  ⟨.comparison, 1.0, phrases [">=", "<=", "!=", "<>", "=", ">", "<"]⟩,
  ofWords .number 1.0 numeral,
  ofWords .comparison 0.9 comparisonWords,
  ofList .aggregation 0.9 ["how many", "number of", "count", "sum", "total", "average", "avg",
    "mean", "minimum", "min", "maximum", "max"],
  ofWords .writeWord 0.85 writeWords,
  ofList .command 0.85 ["show", "list", "display", "get", "find", "fetch", "give me", "return",
    "select", "retrieve", "what is", "what are", "which", "who"],
  ofList .joinWord 0.85 ["joined", "join", "combined with", "together with", "along with",
    "with their", "with its", "related to", "matching"],
  ofList .joinKind 0.85 ["inner", "left", "right", "full", "outer", "cross"],
  ofWords .namedSubqueryWord 0.9
    (ofSeq [phrase "with ", atLeastOnce (.one Text.isWordChar), phrase " as"]),
  ofList .groupWord 0.9 ["per", "for each", "for every", "each", "broken down by",
    "breakdown by"],
  ofList .sortDirection 0.85 ["ascending", "descending", "asc", "desc", "highest", "lowest",
    "largest", "smallest", "biggest", "most", "least", "alphabetically"],
  ofList .limitWord 0.85 ["top", "first", "limit", "bottom", "last"],
  ofWords .filterWord 0.85 filterWords,
  ofWords .subqueryWord 0.8 subqueryWords,
  ofWords .windowWord 0.8 windowWords,
  ofList .distinctWord 0.85 ["distinct", "unique", "different"],
  ofList .logical 0.85 ["and", "or", "not", "but", "except", "without"],
  ofList .null 0.8 ["null", "empty", "missing", "blank"],
  ofList .boolean 0.7 ["true", "false", "yes"],
  ofList .temporal 0.85 ["january", "february", "march", "april", "may", "june", "july",
    "august", "september", "october", "november", "december", "jan", "feb", "mar", "apr", "jun",
    "jul", "aug", "sept", "sep", "oct", "nov", "dec"],
  ofList .determiner 0.7 ["the", "a", "an", "all", "every", "some", "any", "this", "that",
    "these", "those", "my", "our", "their", "its"],
  ofList .preposition 0.7 ["from", "in", "of", "by", "on", "at", "to", "for", "into", "within",
    "during", "until", "about", "across", "among", "through", "than", "as"],
  ⟨.punctuation, 0.9, oneOf ",;:.!?()*%"⟩]

end TokenRule

end AskSql
