import AskSql.Decimal.Whole

/-!
# How alike two words are

The edit distance of two words is the least number of characters to insert, delete or replace that
turns the one into the other.  It is computed row by row: a row holds the distances of a beginning
of the first word from every beginning of the second, and each row follows from the one before.
Two rows are kept: the next one is written over the last but one.
-/

namespace AskSql.Similarity

/-- Two rows, each with an entry for every beginning of a second word of `size` characters: the
finished one, and the one that is overwritten. -/
structure Rows (size : Nat) where
  previous : Vector Nat (size + 1)
  current : Vector Nat (size + 1)
  deriving Repr

namespace Rows

variable {size : Nat}

/-- The rows in front of the first character of the first word: each beginning of the second word
is as far from nothing as it is long. -/
def start (size : Nat) : Rows size where
  previous := Vector.range (size + 1)
  current := Vector.replicate (size + 1) 0

/-- Overwrites the entry for the beginning of the second word that ends with its character at `j`,
where `c` is the next character of the first word. -/
def fill (c : Char) (second : Vector Char size) (j : Nat) (hj : j < size) (rows : Rows size) :
    Rows size :=
  let cost := if c == second[j] then 0 else 1
  let here := min (min (rows.previous[j + 1] + 1) (rows.current[j] + 1)) (rows.previous[j] + cost)
  { rows with current := rows.current.set (j + 1) here }

/-- Fills a row for the character `c` of the first word, which stands at `i`, and takes it for the
finished one. -/
def advance (second : Vector Char size) (rows : Rows size) (c : Char) (i : Nat) : Rows size :=
  let opened := { rows with current := rows.current.set 0 (i + 1) }
  let filled := size.fold (fun j hj => fill c second j hj) opened
  ⟨filled.current, filled.previous⟩

end Rows

/-- The edit distance of two words. -/
def editDistance (a b : String) : Nat :=
  let first := a.toList
  let second := b.toList
  if first.isEmpty then second.length
  else if second.isEmpty then first.length
  else
    let across : Vector Char second.length := ⟨second.toArray, List.size_toArray⟩
    let rows := first.zipIdx.foldl (fun rows (c, i) => rows.advance across c i)
      (Rows.start second.length)
    rows.previous[second.length]

/-- The factor for a word with which the other one begins. -/
def beginningBoost : Float := 1.2

/-- How alike two words are, from 0 to 1: the share of characters that can stay, and more for a
word with which the other one begins. -/
def similarity (a b : String) : Float :=
  let first := a.toList
  let second := b.toList
  let size := max first.length second.length
  if size == 0 then 1.0
  else
    let share := 1.0 - Decimal.ofNat (editDistance a b) / Decimal.ofNat size
    if second.isPrefixOf first || first.isPrefixOf second then
      Decimal.smaller (share * beginningBoost) 1.0
    else share

end AskSql.Similarity
