import AskSql.Proofs.Decimal.Quotient
import AskSql.Proofs.Question.Edits
import AskSql.Question.Similarity

/-!
# The rows hold the least numbers of edits

While the edit distance is computed, the finished row holds the distances of a beginning of the first
word from all beginnings of the second one (`Rows.Holds`), and the one that is written over the last
but one holds those of the beginning with one more character, as far as it is filled
(`Rows.Filled`).  Each entry is filled from three that are known by then, so the last entry of the
last row is the distance of the words (`editDistance_eq`), and what is known of the least number of
edits holds of it (`editDistance_isLeast`).

The distance is no more than the larger length, so that their quotient is a share, and so is the
similarity, also with the factor for beginnings (`isShare_similarity`).
-/

namespace AskSql.Similarity

/-! ### Rows -/

namespace Rows

variable {size k : Nat} {second : Vector Char size} {rows : Rows size} {word : List Char} {c : Char}

/-- A row holds the distances of a word from all beginnings of the second one. -/
def Holds (second : Vector Char size) (word : List Char) (row : Vector Nat (size + 1)) : Prop :=
  ∀ (j : Nat) (hj : j < size + 1), row[j] = distance word (second.toList.take j)

/-- The row of a word is finished, and that of the word with one more character is filled up to the
entry at `k`.  Behind it stands what an earlier row has left. -/
structure Filled (second : Vector Char size) (word : List Char) (c : Char) (k : Nat)
    (rows : Rows size) : Prop where
  previous : Holds second word rows.previous
  current : ∀ (j : Nat) (hj : j < size + 1), j ≤ k →
    rows.current[j] = distance (word ++ [c]) (second.toList.take j)

theorem holds_start (second : Vector Char size) : Holds second [] (start size).previous := by
  intro j hj
  rw [distance_nil_left, List.length_take, Vector.length_toList, start, Vector.getElem_range]
  omega

/-- One more entry, from those above it, in front of it and above that one. -/
theorem Filled.fill (h : Filled second word c k rows) (hk : k < size) :
    Filled second word c (k + 1) (fill c second k hk rows) where
  previous := h.previous
  current j hj hle := by
    simp only [Rows.fill]
    obtain rfl | hlt := Nat.eq_or_lt_of_le hle
    · -- the entry at `k` is of the row that is being filled, the other two are of the finished one
      have htake : second.toList.take (k + 1) = second.toList.take k ++ [second[k]] := by
        rw [List.take_succ_eq_append_getElem (by rwa [Vector.length_toList]), Vector.getElem_toList]
      rw [Vector.getElem_set_self, h.previous (k + 1) hj, h.previous k (by omega),
        h.current k (by omega) (Nat.le_refl k), htake, distance_concat_concat]
    · -- what is filled is not overwritten
      rw [Vector.getElem_set_ne _ _ hlt.ne']
      exact h.current j hj (by omega)

/-- The entries are filled one after another. -/
theorem Filled.fold (h : Filled second word c 0 rows) (hk : k ≤ size) :
    Filled second word c k
      (k.fold (fun j hj => Rows.fill c second j (Nat.lt_of_lt_of_le hj hk)) rows) := by
  induction k with
  | zero => exact h
  | succ k ih =>
      rw [Nat.fold_succ]
      exact (ih (Nat.le_of_succ_le hk)).fill hk

/-- One more row, with one more character of the first word. -/
theorem Holds.advance (h : Holds second word rows.previous) (c : Char) :
    Holds second (word ++ [c]) (rows.advance second c word.length).previous := by
  have hopened : Filled second word c 0
      { rows with current := rows.current.set 0 (word.length + 1) } := by
    refine ⟨h, fun j hj hle => ?_⟩
    obtain rfl := Nat.le_zero.1 hle
    rw [Vector.getElem_set_self, List.take_zero, distance_nil_right, List.length_append,
      List.length_singleton]
  -- the rows change places, so what was filled is finished
  intro j hj
  exact (hopened.fold (Nat.le_refl size)).current j hj (Nat.le_of_lt_succ hj)

/-- The rows are computed one after another. -/
theorem holds_foldl (second : Vector Char size) (word : List Char) :
    Holds second word (word.zipIdx.foldl (fun rows (c, i) => rows.advance second c i)
      (start size)).previous := by
  induction word using List.reverseRecOn with
  | nil => exact holds_start second
  | append_singleton word c ih =>
      rw [List.zipIdx_append, List.foldl_append, Nat.zero_add]
      exact ih.advance c

end Rows

/-- The rows come to the distance by recursion. -/
theorem editDistance_eq (a b : String) : editDistance a b = distance a.toList b.toList := by
  unfold editDistance
  dsimp only
  split
  · next hempty => rw [List.isEmpty_iff.1 hempty, distance_nil_left]
  · split
    · next hempty => rw [List.isEmpty_iff.1 hempty, distance_nil_right]
    · have hlast := Rows.holds_foldl ⟨b.toList.toArray, List.size_toArray⟩ a.toList
        b.toList.length (Nat.lt_succ_self _)
      rwa [Vector.toList_mk, List.take_length] at hlast

/-! ### Similarity -/

theorem similarity_comm (a b : String) : similarity b a = similarity a b := by
  unfold similarity
  dsimp only
  rw [editDistance_eq b a, editDistance_eq a b, distance_comm, Nat.max_comm b.toList.length,
    Bool.or_comm (a.toList.isPrefixOf b.toList)]

/-- The similarity of words whose lengths are counts of 64 bits is a share. -/
theorem isShare_similarity {a b : String} (h : max a.length b.length < 2 ^ 64) :
    Decimal.IsShare (similarity a b) := by
  unfold similarity
  dsimp only
  split
  · exact ⟨by decide, by decide⟩
  · next hsize =>
      have hle : editDistance a b ≤ max a.toList.length b.toList.length := by
        rw [editDistance_eq]
        exact distance_le_max _ _
      have hpos : 0 < max a.toList.length b.toList.length :=
        Nat.pos_of_ne_zero fun hzero => hsize (beq_iff_eq.2 hzero)
      have hshare := (Decimal.isShare_ofNat_div_ofNat hle hpos h).rest
      split
      · exact hshare.smaller_mul (by decide)
      · exact hshare

/-- The number that the rows come to is the least number of characters to insert, delete or replace
that turns the one word into the other, and the value of the recursion on their characters.  So it is
symmetric, zero for equal words alone, at least the difference of the lengths and at most the larger
one, and no more than the sum of the distances from a third word.  Hence similarity is symmetric, and
it is from 0 to 1, with lengths that are counts of 64 bits. -/
theorem editDistance_isLeast (a b : String) :
    IsLeast {n | Edits n a.toList b.toList} (editDistance a b) ∧
      editDistance a b = distance a.toList b.toList ∧
      editDistance b a = editDistance a b ∧
      (editDistance a b = 0 ↔ a = b) ∧
      |(a.length : Int) - b.length| ≤ editDistance a b ∧
      editDistance a b ≤ max a.length b.length ∧
      (∀ c, editDistance a c ≤ editDistance a b + editDistance b c) ∧
      similarity b a = similarity a b ∧
      (max a.length b.length < 2 ^ 64 → 0 ≤ similarity a b ∧ similarity a b ≤ 1) := by
  have hleft := length_le_distance a.toList b.toList
  have hright := length_le_distance b.toList a.toList
  rw [distance_comm, String.length_toList, String.length_toList] at hright
  rw [String.length_toList, String.length_toList] at hleft
  refine ⟨?_, editDistance_eq a b, ?_, ?_, ?_, ?_, fun c => ?_, similarity_comm a b,
    isShare_similarity⟩
  · rw [editDistance_eq]
    exact isLeast_distance _ _
  · rw [editDistance_eq, editDistance_eq, distance_comm]
  · rw [editDistance_eq, distance_eq_zero_iff, String.toList_inj]
  · rw [editDistance_eq, abs_le]
    omega
  · rw [editDistance_eq]
    exact distance_le_max _ _
  · rw [editDistance_eq, editDistance_eq, editDistance_eq]
    exact distance_triangle _ _ _

/-- Two characters are replaced, and one is inserted. -/
theorem editDistance_isLeast_kitten :
    max "kitten".length "sitting".length < 2 ^ 64 ∧
      IsLeast {n | Edits n "kitten".toList "sitting".toList} 3 ∧
      0 ≤ similarity "kitten" "sitting" ∧ similarity "kitten" "sitting" ≤ 1 := by
  have hlength : max "kitten".length "sitting".length < 2 ^ 64 := by decide
  have hthree : editDistance "kitten" "sitting" = 3 := by decide +kernel
  obtain ⟨hleast, -, -, -, -, -, -, -, hshare⟩ := editDistance_isLeast "kitten" "sitting"
  rw [hthree] at hleast
  exact ⟨hlength, hleast, hshare hlength⟩

/-- A word with which the other one begins is taken for the same if little is missing. -/
example : similarity "order" "orders" = 1.0 := by decide +kernel

end AskSql.Similarity
