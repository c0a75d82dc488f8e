import AskSql.Text.Ascii

/-!
# White space

`isBlank` is the property White_Space of characters.  `trim` drops it at both ends of a text, and
`words` cuts a text at every run of it; no word is empty and none holds a blank.
-/

namespace AskSql.Text

/-- The characters with the property White_Space. -/
def isBlank (c : Char) : Bool :=
  let n := c.toNat
  (9 ≤ n && n ≤ 13) || n == 0x20 || n == 0x85 || n == 0xA0 || n == 0x1680 ||
    (0x2000 ≤ n && n ≤ 0x200A) || n == 0x2028 || n == 0x2029 || n == 0x202F || n == 0x205F ||
    n == 0x3000

/-- Drops the blanks at both ends. -/
def trimChars (cs : List Char) : List Char :=
  ((cs.dropWhile isBlank).reverse.dropWhile isBlank).reverse

/-- Drops the blanks at both ends of a text. -/
def trim (s : String) : String :=
  String.ofList (trimChars s.toList)

/-- Nothing but blanks. -/
def isBlankText (s : String) : Bool :=
  s.toList.all isBlank

/-- Cuts at every character that `cut` accepts, keeping empty pieces: one piece more than cuts. -/
def splitChars (cut : Char → Bool) : List Char → List (List Char)
  | [] => [[]]
  | c :: cs =>
    if cut c then
      [] :: splitChars cut cs
    else
      match splitChars cut cs with
      | [] => [[c]]
      | piece :: pieces => (c :: piece) :: pieces

/-- Cuts a text at every character that `cut` accepts, keeping empty pieces. -/
def split (cut : Char → Bool) (s : String) : List String :=
  (splitChars cut s.toList).map String.ofList

/-- The non-empty pieces between characters that `cut` accepts. -/
def pieces (cut : Char → Bool) (s : String) : List String :=
  ((splitChars cut s.toList).filter fun p => !p.isEmpty).map String.ofList

/-- The words of a text: its non-empty pieces between blanks. -/
def words (s : String) : List String :=
  pieces isBlank s

theorem splitChars_ne_nil (cut : Char → Bool) (cs : List Char) : splitChars cut cs ≠ [] := by
  induction cs with
  | nil => simp [splitChars]
  | cons c cs _ =>
    simp only [splitChars]
    split
    · simp
    · split <;> simp

theorem not_cut_of_mem_splitChars {cut : Char → Bool} {cs p : List Char}
    (hp : p ∈ splitChars cut cs) {c : Char} (hc : c ∈ p) : cut c = false := by
  induction cs generalizing p with
  | nil => simp [splitChars] at hp; simp [hp] at hc
  | cons d cs ih =>
    simp only [splitChars] at hp
    split at hp
    · rcases List.mem_cons.1 hp with rfl | hp
      · simp at hc
      · exact ih hp hc
    · rename_i hd
      split at hp
      · rename_i heq
        exact absurd heq (splitChars_ne_nil cut cs)
      · rename_i piece pieces heq
        rcases List.mem_cons.1 hp with rfl | hp
        · rcases List.mem_cons.1 hc with rfl | hc
          · simpa using hd
          · exact ih (by simp [heq]) hc
        · exact ih (by simp [heq, hp]) hc

end AskSql.Text
