/-!
# Words in order

Lists of words, and of words with a value each, that are kept in the order of the words with each
word once.  Words are ordered by their characters.
-/

namespace AskSql.Text

/-- Puts a word where it belongs, unless it is there. -/
def insertWord (word : String) : List String → List String
  | [] => [word]
  | w :: ws =>
    if word == w then w :: ws
    else if word < w then word :: w :: ws
    else w :: insertWord word ws

/-- Some words in their order, each once. -/
def sortWords (words : List String) : List String :=
  words.foldl (fun acc word => insertWord word acc) []

/-- Changes the value of a word, which is put where it belongs if it is not there. -/
def upsert {β : Type} (word : String) (f : Option β → β) : List (String × β) → List (String × β)
  | [] => [(word, f none)]
  | (w, b) :: rest =>
    if word == w then (w, f (some b)) :: rest
    else if word < w then (word, f none) :: (w, b) :: rest
    else (w, b) :: upsert word f rest

@[simp] theorem mem_insertWord {word w : String} {ws : List String} :
    w ∈ insertWord word ws ↔ w = word ∨ w ∈ ws := by
  induction ws with
  | nil => simp [insertWord]
  | cons v vs ih =>
    simp only [insertWord]
    split
    · next h =>
      have : word = v := by simpa using h
      subst this
      simp
    · split
      · simp
      · simp only [List.mem_cons, ih]
        constructor
        · rintro (h | h | h) <;> simp [h]
        · rintro (h | h | h) <;> simp [h]

end AskSql.Text
