import AskSql.Text.Sorted
import Mathlib.Data.List.Nodup

/-!
# Values by word

What is found under a key stands beside it, and where no key stands twice what stands beside it is
found (`Keyed.mem_of_lookup`, `Keyed.lookup_of_mem`).

A list of words with a value each, in the order of the words and each word once, is a map: looking a
word up after its value was changed gives the changed value, and all other words keep theirs
(`Text.lookup_upsert_self`, `Text.lookup_upsert_of_ne`).
-/

namespace AskSql

namespace Keyed

variable {κ β : Type} [BEq κ] [LawfulBEq κ] {entries : List (κ × β)} {key : κ} {value : β}

theorem mem_of_lookup (h : entries.lookup key = some value) : (key, value) ∈ entries := by
  obtain ⟨front, back, rfl, -⟩ := List.lookup_eq_some_iff.1 h
  simp

theorem lookup_of_mem (hnodup : (entries.map Prod.fst).Nodup) (h : (key, value) ∈ entries) :
    entries.lookup key = some value := by
  induction entries with
  | nil => cases h
  | cons e rest ih =>
      rw [List.map_cons, List.nodup_cons] at hnodup
      obtain rfl | hrest := List.mem_cons.1 h
      · rw [List.lookup_cons_self]
      · have hne : key ≠ e.1 := fun heq => hnodup.1 (heq ▸ List.mem_map_of_mem hrest)
        rw [List.lookup_cons, beq_false_of_ne hne]
        exact ih hnodup.2 hrest

end Keyed

namespace Text

variable {β : Type} {word w : String} {f : Option β → β} {l : List (String × β)}

/-- The words come in their order, each once. -/
abbrev InOrder (l : List (String × β)) : Prop :=
  l.Pairwise fun d e => d.1 < e.1

theorem lt_of_not_lt_of_ne {v w : String} (h : ¬v < w) (hne : v ≠ w) : w < v :=
  String.not_le.1 fun hle => hne (String.le_antisymm hle (String.not_lt.1 h))

/-- Changing the value of a word adds no other word. -/
theorem eq_or_mem_of_mem_upsert {e : String × β} (h : e ∈ upsert word f l) :
    e.1 = word ∨ ∃ d ∈ l, d.1 = e.1 := by
  induction l with
  | nil =>
      obtain rfl := List.mem_singleton.1 h
      exact .inl rfl
  | cons d rest ih =>
      obtain ⟨w, b⟩ := d
      rw [upsert] at h
      split at h
      · obtain rfl | h := List.mem_cons.1 h
        · exact .inr ⟨_, List.mem_cons_self, rfl⟩
        · exact .inr ⟨e, List.mem_cons_of_mem _ h, rfl⟩
      · split at h
        · obtain rfl | h := List.mem_cons.1 h
          · exact .inl rfl
          · exact .inr ⟨e, h, rfl⟩
        · obtain rfl | h := List.mem_cons.1 h
          · exact .inr ⟨_, List.mem_cons_self, rfl⟩
          · obtain h | ⟨d, hd, hkey⟩ := ih h
            · exact .inl h
            · exact .inr ⟨d, List.mem_cons_of_mem _ hd, hkey⟩

/-- Words stay in their order. -/
theorem inOrder_upsert (h : InOrder l) : InOrder (upsert word f l) := by
  induction l with
  | nil => exact List.pairwise_singleton _ _
  | cons d rest ih =>
      obtain ⟨v, b⟩ := d
      obtain ⟨hfirst, hrest⟩ := List.pairwise_cons.1 h
      rw [upsert]
      split
      · exact .cons hfirst hrest
      · next hne =>
          split
          · next hlt =>
              refine .cons (List.forall_mem_cons.2 ⟨hlt, fun e he => ?_⟩) h
              exact String.lt_trans hlt (hfirst e he)
          · next hge =>
              have hlt : v < word := lt_of_not_lt_of_ne hge fun heq => hne (beq_iff_eq.2 heq)
              refine .cons (fun e he => ?_) (ih hrest)
              -- what stands behind was there before, or is the word itself
              rcases eq_or_mem_of_mem_upsert he with heq | ⟨d, hd, hkey⟩
              · rwa [heq]
              · exact hkey ▸ hfirst d hd

theorem lookup_eq_none_of_lt (h : ∀ e ∈ l, word < e.1) : l.lookup word = none := by
  rw [List.lookup_eq_none_iff]
  intro e he
  have hne : word ≠ e.1 := fun heq => String.lt_irrefl _ (heq ▸ h e he)
  simpa using hne

/-- The changed value is found under its word. -/
theorem lookup_upsert_self (h : InOrder l) :
    (upsert word f l).lookup word = some (f (l.lookup word)) := by
  induction l with
  | nil => simp [upsert]
  | cons d rest ih =>
      obtain ⟨v, b⟩ := d
      obtain ⟨hfirst, hrest⟩ := List.pairwise_cons.1 h
      rw [upsert]
      split
      · next heq => simp [List.lookup_cons, heq]
      · next hne =>
          have hhead : ((v, b) :: rest).lookup word = rest.lookup word := by
            simp [List.lookup_cons, hne]
          split
          · next hlt =>
              have hnone : rest.lookup word = none :=
                lookup_eq_none_of_lt fun e he => String.lt_trans hlt (hfirst e he)
              rw [hhead, hnone, List.lookup_cons_self]
          · rw [hhead, ← ih hrest]
            simp [List.lookup_cons, hne]

/-- Other values stay. -/
theorem lookup_upsert_of_ne (h : w ≠ word) : (upsert word f l).lookup w = l.lookup w := by
  have hno : (w == word) = false := beq_eq_false_iff_ne.2 h
  induction l with
  | nil => simp [upsert, List.lookup_cons, hno]
  | cons d rest ih =>
      obtain ⟨v, b⟩ := d
      rw [upsert]
      split
      · next heq =>
          obtain rfl : word = v := by simpa using heq
          simp [List.lookup_cons, hno]
      · split
        · simp [List.lookup_cons, hno]
        · rw [List.lookup_cons, List.lookup_cons, ih]

theorem InOrder.nodup_words (h : InOrder l) : (l.map Prod.fst).Nodup :=
  List.pairwise_map.2 (h.imp fun hlt => String.ne_of_lt hlt)

end Text

end AskSql
