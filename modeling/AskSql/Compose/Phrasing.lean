import AskSql.Question.Wording
import AskSql.Text.Lowercase
import AskSql.Text.Numeral
import AskSql.Text.Pattern

/-!
# Phrases of a question

What can be read off a question without a schema: its words, the spans of time, the number of
rows and the grouping that it asks for.  Everything is read in small letters, and phrases are found
wherever they stand.
-/

namespace AskSql

open Text (Pattern)

/-- A question in small letters, with its words. -/
structure Phrasing where
  text : String
  /-- The runs of the letters `a` to `z`, of digits and of low lines. -/
  words : List String

namespace Phrasing

open Text.Pattern

/-- A character of a word. -/
def isWordLetter (c : Char) : Bool :=
  Text.isAsciiSmall c || Text.isAsciiDigit c || c == '_'

/-- The words of a question. -/
def ofText (text : String) : Phrasing :=
  let lower := Text.lowercase text
  ⟨lower, Text.pieces (fun c => !isWordLetter c) lower⟩

/-- One of some words is among the words of the question. -/
def hasAny (p : Phrasing) (words : List String) : Bool :=
  words.any p.words.contains

/-- One of some phrases stands in the question. -/
def mentionsAny (p : Phrasing) (phrases : List String) : Bool :=
  phrases.any (containsText p.text)

/-- Neighbouring words with a blank between them. -/
def pairs (words : List String) : List String :=
  (words.zip words.tail).map fun (a, b) => a ++ " " ++ b

/-- One of the forms of a name is among some words, or among two neighbours of them. -/
def mentionsName (words : List String) (name : String) : Bool :=
  let forms := Name.surfaceForms name
  words.any forms.contains || (pairs words).any forms.contains

/-! ## Spans of time -/

/-- So many units of time before today. -/
def countedSpan : Pattern :=
  ofSeq [.edge, exacts ["last", "past", "previous", "trailing"], blanks, .capture 1 digits, blanks,
    .capture 2 (exacts ["day", "week", "month", "year"]), optional (exact "s"), .edge]

/-- One unit of time up to today, or the one before. -/
def namedSpan : Pattern :=
  .alt
    (ofSeq [.edge, exacts ["last", "past", "this", "previous"], blanks,
      .capture 1 (exacts ["week", "month", "quarter", "year"]), .edge])
    (ofSeq [.edge, .capture 1 (exacts ["today", "yesterday"]), .edge])

/-- The days of a unit of time, or of a word for one day. -/
def daysOfSpan : List (String × Nat) :=
  [("today", 0), ("yesterday", 1), ("week", 7), ("month", 30), ("quarter", 90), ("year", 365)]

/-- The days of a counted span whose count fits in 32 bits. -/
def countedDays? (p : Phrasing) : Option Nat := do
  let found ← countedSpan.find? p.text
  let count ← Text.natural? 32 (← found.get? 1)
  return Wording.daysOf count (← found.get? 2)

/-- The days of a named span. -/
def namedDays? (p : Phrasing) : Option Nat := do
  let found ← namedSpan.find? p.text
  daysOfSpan.lookup (← found.get? 1)

/-- The number of days that the question looks back. -/
def daysBack? (p : Phrasing) : Option Nat :=
  p.countedDays? <|> p.namedDays?

/-- The first month among the words. -/
def month? (p : Phrasing) : Option Nat :=
  p.words.findSome? Wording.month?

/-! ## Numbers of rows -/

/-- A number of rows from one end of the order. -/
def endOfOrder : Pattern :=
  ofSeq [.edge, .capture 1 (exacts ["top", "first", "bottom"]), blanks, .capture 2 digits, .edge]

/-- The last things of a kind. -/
def lastThings : Pattern :=
  ofSeq [.edge, exact "last", blanks, .capture 1 digits, blanks,
    .capture 2 (atLeastOnce (.one fun c => Text.isAsciiSmall c || c == '_'))]

/-- The word without any `s` at its end. -/
def withoutPlural (word : String) : String :=
  String.ofList (word.toList.reverse.dropWhile (· == 's')).reverse

/-- How many rows are asked for, and which of them. -/
inductive Portion where
  | all
  /-- Those at one end of the order by the aggregate. -/
  | best (count : Option Nat) (direction : Direction)
  /-- The newest ones. -/
  | newest (count : Option Nat)
  deriving DecidableEq, Repr

/-- The rows that the question asks for.  A number that does not fit in 64 bits is none. -/
def portion (p : Phrasing) : Portion :=
  match endOfOrder.find? p.text with
  | some found =>
    .best ((found.get? 2).bind (Text.natural? 64))
      (if found.get? 1 == some "bottom" then .asc else .desc)
  | none =>
    match lastThings.find? p.text with
    | some found =>
      let thing := withoutPlural ((found.get? 2).getD "")
      if ["day", "week", "month", "year"].contains thing then .all
      else .newest ((found.get? 1).bind (Text.natural? 64))
    | none => .all

/-! ## Grouping -/

/-- A word of letters and low lines that starts with a letter. -/
def target : Pattern :=
  .seq (.one Text.isAsciiSmall)
    (.repeated (.one fun c => Text.isAsciiSmall c || c == '_'))

/-- A word that asks for a grouping with one or two words behind it.  With a word for sorting in
front of it, which is captured first, it asks for an order. -/
def groupPhrase : Pattern :=
  ofSeq [.edge,
    optional (.capture 1 (.alt
      (ofSeq [exact "sort", optional (exact "ed"), blanks])
      (ofSeq [exact "order", optional (exact "ed"), blanks]))),
    exacts ["per", "by", "for each", "for every", "each"], blanks,
    optional (.seq (exact "the") blanks),
    .capture 2 target, optional (.seq blanks (.capture 3 target))]

/-- The words by which the question asks to group, each with the one behind it if there is one. -/
def groupings (p : Phrasing) : List (String × Option String) :=
  (groupPhrase.findAll p.text).filterMap fun found =>
    if (found.get? 1).isSome then none
    else (found.get? 2).map fun first => (first, found.get? 3)

end Phrasing

end AskSql
