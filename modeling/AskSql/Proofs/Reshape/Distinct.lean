import Mathlib.Data.List.Basic

/-!
# Lists from which repetitions are dropped

Several passes go through a list and keep what is not the same as anything that they have kept
before, whatever being the same may mean (`addDistinct`).  What is kept stands in its old order
(`sublist_foldl_addDistinct`), no part of it repeats another (`pairwise_foldl_addDistinct`), and
nothing is missing that it does not have in another form (`exists_mem_foldl_addDistinct`).
-/

namespace AskSql

variable {α : Type} {same : α → α → Bool} {kept more : List α}

/-- Adds what is not the same as anything that is there. -/
def addDistinct (same : α → α → Bool) (kept : List α) (a : α) : List α :=
  if kept.any (same a) then kept else kept ++ [a]

theorem sublist_foldl_addDistinct (same : α → α → Bool) (kept more : List α) :
    (more.foldl (addDistinct same) kept).Sublist (kept ++ more) := by
  induction more generalizing kept with
  | nil => simp
  | cons a more ih =>
      rw [List.foldl_cons]
      refine (ih _).trans ?_
      unfold addDistinct
      split
      · exact (List.sublist_cons_self a more).append_left kept
      · rw [List.append_assoc, List.singleton_append]

/-- What is kept stays. -/
theorem subset_foldl_addDistinct (same : α → α → Bool) (kept more : List α) :
    kept ⊆ more.foldl (addDistinct same) kept := by
  induction more generalizing kept with
  | nil => exact List.Subset.refl kept
  | cons a more ih =>
      rw [List.foldl_cons]
      refine List.Subset.trans ?_ (ih _)
      unfold addDistinct
      split
      · exact List.Subset.refl kept
      · exact List.subset_append_left kept [a]

/-- Whatever is added is there, or something that is the same. -/
theorem exists_mem_foldl_addDistinct (same : α → α → Bool) (kept : List α) {a : α}
    (h : a ∈ more) :
    ∃ b ∈ more.foldl (addDistinct same) kept, b = a ∨ same a b = true := by
  -- what is added first stays, whatever is added behind it
  induction more generalizing kept with
  | nil => cases h
  | cons c more ih =>
      rw [List.foldl_cons]
      obtain rfl | h := List.mem_cons.1 h
      · have hadded : ∃ b ∈ addDistinct same kept a, b = a ∨ same a b = true := by
          unfold addDistinct
          split
          · next hany =>
              obtain ⟨b, hb, hsame⟩ := List.any_eq_true.1 hany
              exact ⟨b, hb, .inr hsame⟩
          · exact ⟨a, List.mem_append_right kept List.mem_cons_self, .inl rfl⟩
        obtain ⟨b, hb, hsame⟩ := hadded
        exact ⟨b, subset_foldl_addDistinct same _ more hb, hsame⟩
      · exact ih _ h

theorem pairwise_foldl_addDistinct (more : List α)
    (h : kept.Pairwise fun a b => same b a = false) :
    (more.foldl (addDistinct same) kept).Pairwise fun a b => same b a = false := by
  induction more generalizing kept with
  | nil => exact h
  | cons a more ih =>
      rw [List.foldl_cons]
      apply ih
      unfold addDistinct
      split
      · exact h
      · next hnew =>
          rw [Bool.not_eq_true, List.any_eq_false] at hnew
          refine List.pairwise_append.2 ⟨h, List.pairwise_singleton _ _, fun b hb c hc => ?_⟩
          rw [List.mem_singleton.1 hc, ← Bool.not_eq_true]
          exact hnew b hb

/-- Where nothing is repeated, everything is kept. -/
theorem foldl_addDistinct_eq_append (h : (kept ++ more).Pairwise fun a b => same b a = false) :
    more.foldl (addDistinct same) kept = kept ++ more := by
  induction more generalizing kept with
  | nil => exact (List.append_nil kept).symm
  | cons a more ih =>
      have hnew : kept.any (same a) = false := by
        rw [List.any_eq_false]
        intro b hb
        rw [(List.pairwise_append.1 h).2.2 b hb a List.mem_cons_self]
        exact Bool.false_ne_true
      have hadd : addDistinct same kept a = kept ++ [a] := by
        rw [addDistinct, hnew]
        rfl
      rw [← List.singleton_append, ← List.append_assoc] at h
      rw [List.foldl_cons, hadd, ih h, List.append_assoc, List.singleton_append]

end AskSql
