import AskSql.Text.Blank

/-!
# Names of tables and columns

A name is compared without its quotation marks and without regard to the case of ASCII letters
(`normalize`).  In a question it may appear in several forms: as it is, with blanks between its
words, and with its last word in the singular or plural.  `surfaceForms` lists them.
-/

namespace AskSql.Name

open Text

/-- What stands between an opening and a closing mark, if the text has both. -/
def between? (opening closing : Char) (cs : List Char) : Option (List Char) :=
  match cs with
  | c :: rest =>
    if c == opening && rest.getLast? == some closing then some rest.dropLast else none
  | [] => none

/-- The name without blanks around it and without its quotation marks, backquotes or brackets. -/
def unquote (name : String) : String :=
  let cs := trimChars name.toList
  let inner := between? '"' '"' cs <|> between? '\x60' '\x60' cs <|> between? '[' ']' cs
  String.ofList (inner.getD cs)

/-- The form of a name in which names are compared. -/
def normalize (name : String) : String :=
  lower (unquote name)

/-- The text ends in the given letters. -/
def endsIn (w ending : String) : Bool :=
  ending.toList.isSuffixOf w.toList

/-- The text without its last `n` characters. -/
def dropEnd (w : String) (n : Nat) : String :=
  String.ofList (w.toList.take (w.toList.length - n))

/-- Plural endings that lose two letters in the singular. -/
def sibilantPlurals : List String :=
  ["sses", "xes", "ches", "shes", "zes"]

/-- The singular of an English word, by its ending alone; length is counted in bytes. -/
def singular (word : String) : String :=
  let w := lower word
  if w.utf8ByteSize > 3 && endsIn w "ies" then dropEnd w 3 ++ "y"
  else if sibilantPlurals.any fun e => w.utf8ByteSize > e.utf8ByteSize && endsIn w e then
    dropEnd w 2
  else if w.utf8ByteSize > 2 && endsIn w "s" && !endsIn w "ss" && !endsIn w "us" then dropEnd w 1
  else w

/-- A vowel. -/
def isVowel (c : Char) : Bool :=
  ['a', 'e', 'i', 'o', 'u'].contains c

/-- The plural of an English word, by its ending alone. -/
def plural (word : String) : String :=
  let w := lower word
  match w.toList.reverse with
  | 'y' :: before :: _ =>
    if isVowel before then w ++ "s" else dropEnd w 1 ++ "ies"
  | _ =>
    if ["s", "x", "ch", "sh", "z"].any (endsIn w) then w ++ "es" else w ++ "s"

/-- Writes capitals small, with a low line in front of one that follows a small letter or a
digit. -/
def snakeChars (afterSmall : Bool) : List Char → List Char
  | [] => []
  | c :: cs =>
    if isAsciiCapital c then
      (if afterSmall then ['_', c.toLower] else [c.toLower]) ++ snakeChars false cs
    else
      c :: snakeChars (isAsciiSmall c || isAsciiDigit c) cs

/-- A name with its words in small letters and low lines between them. -/
def camelToSnake (name : String) : String :=
  String.ofList (snakeChars false name.toList)

/-- A character that parts the words of a name. -/
def isSeparator (c : Char) : Bool :=
  c == '_' || c == '-' || isBlank c

/-- A name as words with one blank between them. -/
def toWords (name : String) : String :=
  String.intercalate " " (pieces isSeparator (camelToSnake name))

/-- Words as a name in small letters with low lines between them. -/
def wordsToSnake (s : String) : String :=
  String.intercalate "_" ((words s).map lower)

/-- Appends a form that is not empty and not there yet. -/
def addForm (forms : List String) (form : String) : List String :=
  if form.isEmpty || forms.contains form then forms else forms ++ [form]

/-- All forms in which a name may appear in a question, the normal form first. -/
def surfaceForms (name : String) : List String :=
  let base := normalize name
  let spaced := toWords base
  let parts := split (· == ' ') spaced
  let head := String.intercalate " " parts.dropLast
  let last := parts.getLast?.getD ""
  let variants := [singular last, plural last].map fun v =>
    if head.isEmpty then v else head ++ " " ++ v
  (camelToSnake base :: spaced :: variants.flatMap fun v => [wordsToSnake v, v]).foldl addForm
    [base]

theorem mem_addForm_iff {forms : List String} {f form : String} :
    f ∈ addForm forms form ↔ f ∈ forms ∨ f = form ∧ f ≠ "" := by
  unfold addForm
  split
  · next hskip =>
    rw [Bool.or_eq_true, String.isEmpty_iff, List.contains_iff_mem] at hskip
    refine ⟨.inl, fun h => h.elim id ?_⟩
    rintro ⟨rfl, hne⟩
    exact hskip.resolve_left hne
  · next hskip =>
    rw [Bool.or_eq_true, String.isEmpty_iff, not_or] at hskip
    rw [List.mem_append, List.mem_singleton]
    refine or_congr_right ⟨?_, And.left⟩
    rintro rfl
    exact ⟨rfl, hskip.1⟩

theorem mem_foldl_addForm_iff {forms more : List String} {f : String} :
    f ∈ more.foldl addForm forms ↔ f ∈ forms ∨ f ∈ more ∧ f ≠ "" := by
  induction more generalizing forms with
  | nil => simp
  | cons form more ih =>
    rw [List.foldl_cons, ih, mem_addForm_iff, List.mem_cons, or_assoc, ← or_and_right]

/-- The normal form is one of the surface forms. -/
theorem normalize_mem_surfaceForms (name : String) : normalize name ∈ surfaceForms name :=
  mem_foldl_addForm_iff.2 (.inl List.mem_cons_self)

end AskSql.Name
