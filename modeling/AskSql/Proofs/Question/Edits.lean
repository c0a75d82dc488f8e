import Mathlib.Data.List.Basic
import Mathlib.Order.Bounds.Defs
import Mathlib.Order.MinMax

/-!
# Edits of words

A word becomes another one by edits, each of which inserts, deletes or replaces a single character
anywhere in it (`Edits`).  How many it takes at least is told by a recursion on the first characters
of the two words (`distance`, `isLeast_distance`): no edit brings a word nearer to another one by
more than one (`distance_le_of_edit`).

Edits lead back as well, one after another, and in reversed words.  So the distance is symmetric,
obeys the triangle inequality and is the same for reversed words, and it may be computed from the
last characters instead of the first ones (`distance_concat_concat`).
-/

namespace AskSql.Similarity

/-- A single character is inserted, deleted or replaced. -/
inductive Edit : List Char → List Char → Prop
  | insert (before after : List Char) (c : Char) : Edit (before ++ after) (before ++ c :: after)
  | delete (before after : List Char) (c : Char) : Edit (before ++ c :: after) (before ++ after)
  | replace (before after : List Char) (c d : Char) :
      Edit (before ++ c :: after) (before ++ d :: after)

/-- A number of edits, one after another, turns the first word into the second one. -/
inductive Edits : Nat → List Char → List Char → Prop
  | none (word : List Char) : Edits 0 word word
  | next {n : Nat} {u v w : List Char} (hedit : Edit u v) (hrest : Edits n v w) :
      Edits (n + 1) u w

/-- How far two words are from each other, by their first characters: one of them is deleted or
inserted, or both are taken together, for nothing if they are the same. -/
def distance : List Char → List Char → Nat
  | [], second => second.length
  | first, [] => first.length
  | c :: first, d :: second =>
    min (min (distance first (d :: second) + 1) (distance (c :: first) second + 1))
      (distance first second + if c == d then 0 else 1)
termination_by first second => first.length + second.length

variable {n k : Nat} {u v w : List Char}

/-! ### Edits -/

theorem Edit.symm (h : Edit u v) : Edit v u := by
  cases h with
  | insert before after c => exact .delete before after c
  | delete before after c => exact .insert before after c
  | replace before after c d => exact .replace before after d c

theorem Edit.cons (c : Char) (h : Edit u v) : Edit (c :: u) (c :: v) := by
  cases h with
  | insert before after d => exact .insert (c :: before) after d
  | delete before after d => exact .delete (c :: before) after d
  | replace before after d e => exact .replace (c :: before) after d e

theorem Edit.reverse (h : Edit u v) : Edit u.reverse v.reverse := by
  cases h with
  | insert before after c => simpa using Edit.insert after.reverse before.reverse c
  | delete before after c => simpa using Edit.delete after.reverse before.reverse c
  | replace before after c d => simpa using Edit.replace after.reverse before.reverse c d

theorem Edit.length_le (h : Edit u v) : u.length ≤ v.length + 1 := by
  cases h <;> simp only [List.length_append, List.length_cons] <;> omega

theorem Edits.single (h : Edit u v) : Edits 1 u v :=
  .next h (.none v)

theorem Edits.trans (huv : Edits n u v) (hvw : Edits k v w) : Edits (n + k) u w := by
  induction huv with
  | none word => rwa [Nat.zero_add]
  | @next n _ _ _ hedit _ ih =>
      rw [Nat.add_right_comm]
      exact .next hedit (ih hvw)

theorem Edits.symm (h : Edits n u v) : Edits n v u := by
  induction h with
  | none word => exact .none word
  | next hedit _ ih => exact ih.trans (single hedit.symm)

theorem Edits.cons (c : Char) (h : Edits n u v) : Edits n (c :: u) (c :: v) := by
  induction h with
  | none word => exact .none (c :: word)
  | next hedit _ ih => exact .next (hedit.cons c) ih

theorem Edits.reverse (h : Edits n u v) : Edits n u.reverse v.reverse := by
  induction h with
  | none word => exact .none word.reverse
  | next hedit _ ih => exact .next hedit.reverse ih

theorem Edits.length_le (h : Edits n u v) : u.length ≤ v.length + n := by
  induction h with
  | none word => exact Nat.le_refl _
  | next hedit _ ih =>
      have := hedit.length_le
      omega

theorem Edits.min (hn : Edits n u v) (hk : Edits k u v) : Edits (min n k) u v := by
  obtain hmin | hmin := min_choice n k
  · rwa [hmin]
  · rwa [hmin]

/-- A word is built up character by character. -/
theorem edits_nil (word : List Char) : Edits word.length [] word := by
  induction word with
  | nil => exact .none []
  | cons c word ih => exact .next (.insert [] [] c) (ih.cons c)

/-! ### Edits enough -/

theorem distance_nil_left (w : List Char) : distance [] w = w.length := by
  rw [distance]

theorem distance_nil_right (w : List Char) : distance w [] = w.length := by
  cases w with
  | nil => rw [distance]
  | cons c w =>
      rw [distance]
      exact List.cons_ne_nil c w

/-- As many edits as the distance says are enough. -/
theorem edits_distance (u v : List Char) : Edits (distance u v) u v := by
  fun_induction distance u v with
  | case1 second => exact edits_nil second
  | case2 first _ => exact (edits_nil first).symm
  | case3 c first d second hdelete hinsert hkeep =>
      -- each of the three ways takes the edits of the words that it leaves
      refine .min (.min ?_ ?_) ?_
      · exact .next (.delete [] first c) hdelete
      · exact .next (.insert [] (c :: first) d) (hinsert.cons d)
      · split
        · next hsame =>
            obtain rfl := beq_iff_eq.1 hsame
            exact hkeep.cons c
        · exact .next (.replace [] first c d) (hkeep.cons d)

/-! ### No fewer edits -/

theorem distance_cons_left_le (c : Char) (u w : List Char) :
    distance (c :: u) w ≤ distance u w + 1 := by
  cases w with
  | nil =>
      rw [distance_nil_right, distance_nil_right]
      exact Nat.le_refl _
  | cons d w =>
      rw [distance]
      omega

theorem distance_cons_right_le (c : Char) (u w : List Char) :
    distance u (c :: w) ≤ distance u w + 1 := by
  cases u with
  | nil =>
      rw [distance_nil_left, distance_nil_left]
      exact Nat.le_refl _
  | cons d u =>
      rw [distance]
      omega

theorem distance_le_cons_left (c : Char) (u w : List Char) :
    distance u w ≤ distance (c :: u) w + 1 := by
  induction w with
  | nil =>
      rw [distance_nil_right, distance_nil_right, List.length_cons]
      omega
  | cons d w ih =>
      have hright := distance_cons_right_le d u w
      rw [distance]
      omega

theorem distance_replace_le (c d : Char) (u w : List Char) :
    distance (c :: u) w ≤ distance (d :: u) w + 1 := by
  induction w with
  | nil =>
      rw [distance_nil_right, distance_nil_right, List.length_cons, List.length_cons]
      omega
  | cons e w ih =>
      have hcost : (if c == e then 0 else 1) ≤ 1 := by
        split <;> omega
      rw [distance, distance]
      omega

/-- What holds of two words holds with the same characters in front of them. -/
theorem distance_append_le (before : List Char) (h : ∀ w, distance u w ≤ distance v w + 1)
    (w : List Char) : distance (before ++ u) w ≤ distance (before ++ v) w + 1 := by
  -- the other word has to get shorter as well: an edit may insert its first character
  induction before generalizing w with
  | nil => exact h w
  | cons c before ihbefore =>
      rw [List.cons_append, List.cons_append]
      induction w with
      | nil =>
          have := ihbefore []
          rw [distance_nil_right, distance_nil_right] at this ⊢
          exact Nat.succ_le_succ this
      | cons d w ih =>
          have hdelete := ihbefore (d :: w)
          have hkeep := ihbefore w
          rw [distance, distance]
          omega

/-- One edit brings a word nearer to another one by one at most. -/
theorem distance_le_of_edit (h : Edit u v) (w : List Char) :
    distance u w ≤ distance v w + 1 := by
  cases h with
  | insert before after c => exact distance_append_le before (distance_le_cons_left c after) w
  | delete before after c => exact distance_append_le before (distance_cons_left_le c after) w
  | replace before after c d => exact distance_append_le before (distance_replace_le c d after) w

theorem distance_self (w : List Char) : distance w w = 0 := by
  induction w with
  | nil => exact distance_nil_left []
  | cons c w ih =>
      rw [distance, ih, BEq.rfl, if_pos rfl, Nat.min_zero]

theorem distance_le_of_edits (h : Edits n u v) : distance u v ≤ n := by
  induction h with
  | none word => exact (distance_self word).le
  | next hedit _ ih => exact (distance_le_of_edit hedit _).trans (Nat.succ_le_succ ih)

/-- The distance is the least number of edits. -/
theorem isLeast_distance (u v : List Char) : IsLeast {n | Edits n u v} (distance u v) :=
  ⟨edits_distance u v, fun _ h => distance_le_of_edits h⟩

/-! ### What follows for the distance -/

theorem distance_comm (u v : List Char) : distance u v = distance v u :=
  le_antisymm (distance_le_of_edits (edits_distance v u).symm)
    (distance_le_of_edits (edits_distance u v).symm)

theorem distance_eq_zero_iff : distance u v = 0 ↔ u = v := by
  constructor
  · intro hzero
    have hedits := edits_distance u v
    rw [hzero] at hedits
    cases hedits
    rfl
  · rintro rfl
    exact distance_self u

theorem distance_triangle (u v w : List Char) :
    distance u w ≤ distance u v + distance v w :=
  distance_le_of_edits ((edits_distance u v).trans (edits_distance v w))

theorem length_le_distance (u v : List Char) : u.length ≤ v.length + distance u v :=
  (edits_distance u v).length_le

/-- Characters at the same places are kept or replaced, and what is left of the longer word is
deleted or inserted. -/
theorem distance_le_max (u v : List Char) : distance u v ≤ max u.length v.length := by
  fun_induction distance u v with
  | case1 second => exact le_max_right _ _
  | case2 first _ => exact le_max_left _ _
  | case3 c first d second _ _ hkeep =>
      have hcost : (if c == d then 0 else 1) ≤ 1 := by
        split <;> omega
      rw [List.length_cons, List.length_cons]
      omega

theorem distance_reverse (u v : List Char) : distance u.reverse v.reverse = distance u v := by
  apply le_antisymm
  · exact distance_le_of_edits (edits_distance u v).reverse
  · have hback := (edits_distance u.reverse v.reverse).reverse
    rw [List.reverse_reverse, List.reverse_reverse] at hback
    exact distance_le_of_edits hback

/-- The recursion by the last characters. -/
theorem distance_concat_concat (u v : List Char) (c d : Char) :
    distance (u ++ [c]) (v ++ [d]) =
      min (min (distance u (v ++ [d]) + 1) (distance (u ++ [c]) v + 1))
        (distance u v + if c == d then 0 else 1) := by
  -- the last characters are the first ones of the reversed words
  rw [← distance_reverse (u ++ [c]) (v ++ [d]), ← distance_reverse u (v ++ [d]),
    ← distance_reverse (u ++ [c]) v, ← distance_reverse u v, List.reverse_concat',
    List.reverse_concat', distance]

end AskSql.Similarity
