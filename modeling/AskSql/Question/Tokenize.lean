import AskSql.Question.Rule
import AskSql.Schema.Basic
import AskSql.Text.Lowercase

/-!
# Questions as tokens

A question is read from left to right.  Blanks are passed over, and everything else becomes part of
a token: the longest piece that a rule gives, or else a word, or else a single character.  Words
are looked up among the names of the schema.  At the end some pairs of neighbours are made one
token: `group by` and `order by` in their wordings, and names that consist of two words.
-/

namespace AskSql

/-- Words of questions with the names of the schema that they stand for, the first one of a word
being the one that counts.  The words are written in small letters. -/
abbrev Dictionary := List (String × String)

namespace Dictionary

/-- A word for a name, unless there is nothing to it or it has more than two parts. -/
def entry (name word : String) : Dictionary :=
  let key := Text.lower (Text.trim word)
  if key.isEmpty || 2 < (Text.words key).length then [] else [(key, name)]

/-- The forms of a name, and its synonyms. -/
def entries (name : String) (synonyms : List String) : Dictionary :=
  (Name.surfaceForms name ++ synonyms).flatMap (entry name)

/-- The words for the tables, columns and functions of a schema. -/
def ofSchema (s : Schema) : Dictionary :=
  s.tables.flatMap (fun t => entries t.name t.synonyms) ++
    s.tables.flatMap (fun t => t.columns.flatMap fun c => entries c.name c.synonyms) ++
    s.functions.flatMap fun f => entry f.name f.name

end Dictionary

/-- Short words and what they are written out as. -/
def abbreviations : List (String × String) :=
  [("avg", "average"), ("qty", "quantity"), ("amt", "amount"), ("num", "number"),
    ("cnt", "count"), ("yr", "year"), ("yrs", "years"), ("mo", "month"), ("mos", "months"),
    ("asc", "ascending"), ("desc", "descending"), ("min", "minimum"), ("max", "maximum"),
    ("dept", "department"), ("cust", "customer"), ("jan", "january"), ("feb", "february"),
    ("mar", "march"), ("apr", "april"), ("jun", "june"), ("jul", "july"), ("aug", "august"),
    ("sep", "september"), ("sept", "september"), ("oct", "october"), ("nov", "november"),
    ("dec", "december")]

/-- A word, written out if it is an abbreviation. -/
def expandAbbreviation (word : String) : String :=
  (abbreviations.lookup word).getD word

/-- Words in small letters, written out, with one space between them. -/
def normalizeWords (s : String) : String :=
  String.intercalate " " ((Text.words s).map fun w => expandAbbreviation (Text.lowercase w))

/-- Writes each pair of apostrophes as one. -/
def mergeApostrophes : List Char → List Char
  | '\'' :: '\'' :: cs => '\'' :: mergeApostrophes cs
  | c :: cs => c :: mergeApostrophes cs
  | [] => []

/-- A text without the marks around it, and with pairs of apostrophes in it made one. -/
def unquoteText (s : String) : String :=
  let cs := s.toList
  String.ofList (mergeApostrophes (if s.utf8ByteSize < 2 then cs else cs.tail.dropLast))

/-- The kind of a word by its look: by its ending, unless it begins with a capital. -/
def shapeKind (word : String) : TokenKind :=
  let small := Text.lowercase word
  let size := small.utf8ByteSize
  if word.toList.head?.any Text.isUppercase then .noun
  else if 3 < size && Name.endsIn small "ly" then .adverb
  else if 4 < size && (Name.endsIn small "ing" || Name.endsIn small "ed") then .verb
  else .noun

/-- The beginning of a question taken for a token. -/
structure Lexeme where
  /-- The number of characters after the first one. -/
  more : Nat
  kind : TokenKind
  normalized : String
  confidence : Float

namespace Lexeme

/-- How sure the kind of a word is that is told by its look. -/
def shapeConfidence : Float := 0.5

/-- How sure the kind of a word is that is a name of the schema. -/
def dictionaryConfidence : Float := 0.9

/-- The number of characters of the beginning that a rule matches, if it is one at least. -/
def matched? (cs : List Char) (r : TokenRule) : Option (TokenRule × Nat) :=
  (r.pattern.matchAt? none cs).bind fun d =>
    if d.rest.length < cs.length then some (r, cs.length - d.rest.length) else none

/-- The longer of two matches; the first of two that are as long. -/
def longer (best : Option (TokenRule × Nat)) (found : TokenRule × Nat) :
    Option (TokenRule × Nat) :=
  match best with
  | some b => if b.2 < found.2 then some found else some b
  | none => some found

/-- The rule that matches most of the beginning, with the number of characters. -/
def bestRule? (cs : List Char) : Option (TokenRule × Nat) :=
  (TokenRule.all.filterMap (matched? cs)).foldl longer none

/-- The beginning as a rule takes it. -/
def ofRule (cs : List Char) (r : TokenRule) (size : Nat) : Lexeme :=
  let raw := String.ofList (cs.take size)
  { more := size - 1, kind := r.kind, confidence := r.confidence
    normalized :=
      if r.kind = .quoted then Text.lowercase (unquoteText raw) else normalizeWords raw }

/-- A word, by the dictionary or by its look. -/
def ofWord (d : Dictionary) (raw : String) : Lexeme :=
  let small := Text.lowercase raw
  let expanded := expandAbbreviation small
  let more := raw.toList.length - 1
  match d.lookup small <|> d.lookup expanded with
  | some name =>
    { more, kind := .identifier, normalized := Text.lower name
      confidence := dictionaryConfidence }
  | none =>
    { more, kind := shapeKind raw, normalized := expanded, confidence := shapeConfidence }

/-- A single character. -/
def ofChar (c : Char) : Lexeme where
  more := 0
  kind := if Text.isAsciiPunctuation c then .punctuation else .unknown
  normalized := String.singleton c
  confidence := shapeConfidence

/-- A character of the words that no rule gives. -/
def isWordPart (c : Char) : Bool :=
  Text.isAlphanumeric c || c == '_'

/-- The beginning as a token: by the rules, or as a word, or as a single character. -/
def read (d : Dictionary) (c : Char) (cs : List Char) : Lexeme :=
  match bestRule? (c :: cs) with
  | some (r, size) => ofRule (c :: cs) r size
  | none =>
    match (c :: cs).takeWhile isWordPart with
    | [] => ofChar c
    | word => ofWord d (String.ofList word)

end Lexeme

namespace Token

/-- The tokens of a text that begins at a position, each with the blanks in front of it. -/
def scan (d : Dictionary) (position : Nat) (gap : List Char) : List Char → List (String × Token)
  | [] => []
  | c :: cs =>
    if Text.isBlank c then scan d (position + c.utf8Size) (gap ++ [c]) cs
    else
      let l := Lexeme.read d c cs
      let text := String.ofList (c :: cs.take l.more)
      let length := text.utf8ByteSize
      (String.ofList gap, ⟨text, l.kind, position, length, l.normalized, l.confidence⟩) ::
        scan d (position + length) [] (cs.drop l.more)
termination_by cs => cs.length
decreasing_by
  · simp only [List.length_cons]
    omega
  · simp only [List.length_cons, List.length_drop]
    omega

section Scan

variable (d : Dictionary) (position : Nat) (gap : List Char)

theorem scan_nil : scan d position gap [] = [] := by
  rw [scan.eq_def]

theorem scan_blank {c : Char} (hc : Text.isBlank c = true) (cs : List Char) :
    scan d position gap (c :: cs) = scan d (position + c.utf8Size) (gap ++ [c]) cs := by
  rw [scan.eq_def]
  simp only [hc, if_true]

theorem scan_lexeme {c : Char} (hc : ¬Text.isBlank c = true) (cs : List Char) :
    scan d position gap (c :: cs) =
      let l := Lexeme.read d c cs
      let text := String.ofList (c :: cs.take l.more)
      let length := text.utf8ByteSize
      (String.ofList gap, ⟨text, l.kind, position, length, l.normalized, l.confidence⟩) ::
        scan d (position + length) [] (cs.drop l.more) := by
  rw [scan.eq_def]
  simp only [if_neg hc]

end Scan

/-- A token that may be part of a name. -/
def mayMerge (t : Token) : Bool :=
  !(t.kind.isLiteral || t.kind == .comparison || t.kind == .punctuation)

/-- What two neighbours are together, if they are one token: its kind and normal form. -/
def pairKind? (d : Dictionary) (s t : Token) : Option (TokenKind × String) :=
  let a := Text.lowercase s.text
  let b := Text.lowercase t.text
  if b == "by" && (a == "group" || a == "grouped") then some (.groupWord, "group by")
  else if b == "by" && (a == "order" || a == "ordered" || a == "sort" || a == "sorted") then
    some (.orderWord, "order by")
  else if s.mayMerge && t.mayMerge then
    (d.lookup (a ++ " " ++ b)).map fun name => (.identifier, Text.lower name)
  else none

/-- Two neighbours as one token. -/
def merge (gap : String) (s t : Token) (kind : TokenKind) (normalized : String) : Token where
  text := s.text ++ gap ++ t.text
  kind := kind
  position := s.position
  length := t.stop - s.position
  normalized := normalized
  confidence :=
    let sum := (if s.confidence < t.confidence then t.confidence else s.confidence) + 0.1
    if 1.0 < sum then 1.0 else sum

/-- Makes pairs of neighbours one token where they belong together. -/
def mergePairs (d : Dictionary) : List (String × Token) → List Token
  | [] => []
  | [(_, t)] => [t]
  | (_, s) :: (gap, t) :: rest =>
    match pairKind? d s t with
    | some (kind, normalized) => merge gap s t kind normalized :: mergePairs d rest
    | none => s :: mergePairs d ((gap, t) :: rest)

end Token

/-- The tokens of a question. -/
def tokenize (d : Dictionary) (question : String) : List Token :=
  Token.mergePairs d (Token.scan d 0 [] question.toList)

end AskSql
