import AskSql.Proofs.Optimizer.Fifo
import Mathlib.Data.List.Perm.Subperm
import Mathlib.Logic.Function.Iterate

/-!
# How often keys were asked for

A store counts the requests for its keys since it was last cleared.  It has room for a number of
counts only, and where there are more all of them are halved, again and again, until they fit.  So a
count is at most the number of requests (`Cache.Counted`): counting another request keeps it so
(`Cache.Counted.record`), and so does any history (`Cache.counted_run`).  As long as no more keys
were asked for than there is room for, nothing is halved and the counts are exact.

Halving makes a sum of the counts smaller, so it comes to an end, with the first round after which
the counts fit (`Cache.exists_decay_eq`).
-/

namespace AskSql
namespace Cache

variable {κ β : Type}

/-- The requests since the store was last cleared, after one more operation. -/
def Operation.askedAfter (keys : List κ) : Operation κ β → List κ
  | .record key => keys ++ [key]
  | .clear => []
  | _ => keys

/-- The requests of a history since the store was last cleared. -/
def asked (history : List (Operation κ β)) : List κ :=
  history.foldl Operation.askedAfter []

theorem asked_concat (history : List (Operation κ β)) (op : Operation κ β) :
    asked (history ++ [op]) = op.askedAfter (asked history) := by
  rw [asked, List.foldl_append]
  rfl

/-! ### Halving -/

theorem mem_halve {counts : List (κ × Nat)} {e : κ × Nat} (h : e ∈ halve counts) :
    ∃ n, (e.1, n) ∈ counts ∧ e.2 = n / 2 ∧ 0 < e.2 := by
  obtain ⟨hmem, hpos⟩ := List.mem_filter.1 h
  obtain ⟨⟨key, n⟩, hn, rfl⟩ := List.mem_map.1 hmem
  exact ⟨n, hn, rfl, of_decide_eq_true hpos⟩

theorem keys_halve_sublist (counts : List (κ × Nat)) :
    ((halve counts).map Prod.fst).Sublist (counts.map Prod.fst) := by
  have hsublist := (List.filter_sublist
    (p := fun e : κ × Nat => decide (0 < e.2)) (l := counts.map fun e => (e.1, e.2 / 2))).map Prod.fst
  rwa [List.map_map] at hsublist

/-- What halving keeps is kept until the counts fit. -/
theorem decay_induction {P : List (κ × Nat) → Prop} (hhalve : ∀ counts, P counts → P (halve counts))
    (limit : Nat) {counts : List (κ × Nat)} (h : P counts) : P (decay limit counts) := by
  fun_induction decay limit counts with
  | case1 counts _ => exact h
  | case2 counts _ ih => exact ih (hhalve counts h)

/-- The counts are halved as often as it takes for them to fit, and no more often. -/
theorem exists_decay_eq (limit : Nat) (counts : List (κ × Nat)) :
    ∃ n, decay limit counts = halve^[n] counts ∧ (halve^[n] counts).length ≤ limit ∧
      ∀ m < n, limit < (halve^[m] counts).length := by
  fun_induction decay limit counts with
  | case1 counts hfits => exact ⟨0, rfl, hfits, fun m hm => absurd hm (Nat.not_lt_zero m)⟩
  | case2 counts hfull ih =>
      obtain ⟨n, heq, hfits, hbefore⟩ := ih
      refine ⟨n + 1, heq, hfits, fun m hm => ?_⟩
      cases m with
      | zero => exact Nat.lt_of_not_le hfull
      | succ m => exact hbefore m (by omega)

theorem decay_of_length_le {limit : Nat} {counts : List (κ × Nat)} (h : counts.length ≤ limit) :
    decay limit counts = counts := by
  rw [decay, if_pos h]

/-! ### Counting one request -/

section Counting

variable [BEq κ] [LawfulBEq κ]

theorem lookup_countUp (key other : κ) (counts : List (κ × Nat)) :
    (countUp key counts).lookup other =
      if other == key then some ((counts.lookup key).getD 0 + 1) else counts.lookup other := by
  induction counts with
  | nil =>
      rw [countUp, List.lookup_cons]
      cases other == key <;> rfl
  | cons e rest ih =>
      obtain ⟨k, n⟩ := e
      rw [countUp]
      split
      · next hkey =>
          obtain rfl := eq_of_beq hkey
          rw [List.lookup_cons_self, List.lookup_cons, List.lookup_cons]
          cases other == key <;> rfl
      · next hkey =>
          have hne : key ≠ k := fun heq => hkey (beq_iff_eq.2 heq)
          simp only [List.lookup_cons, beq_false_of_ne hne, ih]
          by_cases hother : other = k
          · subst hother
            simp [hne.symm]
          · simp only [beq_false_of_ne hother]

/-- A count is that of before, or that of the key, which has grown by one. -/
theorem mem_countUp {key : κ} {counts : List (κ × Nat)} (hnodup : (counts.map Prod.fst).Nodup)
    {e : κ × Nat} (h : e ∈ countUp key counts) :
    e.1 ≠ key ∧ e ∈ counts ∨ e = (key, (counts.lookup key).getD 0 + 1) := by
  induction counts with
  | nil => exact .inr (List.mem_singleton.1 h)
  | cons d rest ih =>
      obtain ⟨k, n⟩ := d
      rw [List.map_cons, List.nodup_cons] at hnodup
      rw [countUp] at h
      split at h
      · next hkey =>
          obtain rfl := eq_of_beq hkey
          rcases List.mem_cons.1 h with rfl | hrest
          · exact .inr (by rw [List.lookup_cons_self]; rfl)
          · have hmem : e.1 ∈ rest.map Prod.fst := List.mem_map_of_mem hrest
            exact .inl ⟨fun heq => hnodup.1 (heq ▸ hmem), List.mem_cons_of_mem _ hrest⟩
      · next hkey =>
          rcases List.mem_cons.1 h with rfl | hrest
          · exact .inl ⟨fun heq => hkey (beq_iff_eq.2 heq.symm), List.mem_cons_self⟩
          · rw [List.lookup_cons, Bool.eq_false_iff.2 hkey]
            exact (ih hnodup.2 hrest).imp_left fun hold => ⟨hold.1, List.mem_cons_of_mem _ hold.2⟩

theorem keys_countUp (key : κ) (counts : List (κ × Nat)) :
    (countUp key counts).map Prod.fst =
      if key ∈ counts.map Prod.fst then counts.map Prod.fst else counts.map Prod.fst ++ [key] := by
  induction counts with
  | nil => rfl
  | cons e rest ih =>
      obtain ⟨k, n⟩ := e
      rw [countUp]
      split
      · next hkey =>
          obtain rfl := eq_of_beq hkey
          simp
      · next hkey =>
          have hne : key ≠ k := fun heq => hkey (beq_iff_eq.2 heq)
          rw [List.map_cons, ih, List.map_cons]
          by_cases hmem : key ∈ rest.map Prod.fst
          · rw [if_pos hmem, if_pos (List.mem_cons_of_mem _ hmem)]
          · rw [if_neg hmem, if_neg (by simpa [hne] using hmem), List.cons_append]

theorem nodup_keys_countUp {counts : List (κ × Nat)} (h : (counts.map Prod.fst).Nodup) (key : κ) :
    ((countUp key counts).map Prod.fst).Nodup := by
  rw [keys_countUp]
  split
  · exact h
  · next hnew => exact InStep.nodup_snoc h hnew

/-! ### What is counted -/

/-- The counts of some requests, for no more than `limit` keys: each counts one request at least, and
no more than there were.  They are exact if no more than `limit` keys were asked for. -/
structure Counted (limit : Nat) (keys : List κ) (counts : List (κ × Nat)) : Prop where
  nodup : (counts.map Prod.fst).Nodup
  length_le : counts.length ≤ limit
  bounds : ∀ e ∈ counts, 1 ≤ e.2 ∧ e.2 ≤ keys.count e.1
  exact : ∀ few : List κ, few.length ≤ limit → keys ⊆ few →
    ∀ key, (counts.lookup key).getD 0 = keys.count key

namespace Counted

variable {limit : Nat} {keys : List κ} {counts : List (κ × Nat)}

omit [LawfulBEq κ] in
theorem nil (limit : Nat) : Counted limit ([] : List κ) [] where
  nodup := List.nodup_nil
  length_le := Nat.zero_le _
  bounds _ h := absurd h List.not_mem_nil
  exact _ _ _ _ := rfl

theorem frequency_le (h : Counted limit keys counts) (key : κ) :
    (counts.lookup key).getD 0 ≤ keys.count key := by
  cases hn : counts.lookup key with
  | none => exact Nat.zero_le _
  | some n => exact (h.bounds _ (Keyed.mem_of_lookup hn)).2

/-- The new count of a key, before counts are halved. -/
theorem lookup_countUp_self (key : κ) (counts : List (κ × Nat)) :
    ((countUp key counts).lookup key).getD 0 = (counts.lookup key).getD 0 + 1 := by
  rw [lookup_countUp, if_pos (beq_self_eq_true key)]
  rfl

theorem record_le (h : Counted limit keys counts) (key : κ) :
    ((countUp key counts).lookup key).getD 0 ≤ (keys ++ [key]).count key := by
  have hle := h.frequency_le key
  rw [lookup_countUp_self, List.count_append, List.count_singleton_self]
  omega

/-- Counts that were exact are exact with one request more. -/
theorem lookup_countUp_eq (h : ∀ key, (counts.lookup key).getD 0 = keys.count key) (key other : κ) :
    ((countUp key counts).lookup other).getD 0 = (keys ++ [key]).count other := by
  rw [lookup_countUp, List.count_append, List.count_singleton, Bool.beq_comm (a := key)]
  split
  · next heq =>
      obtain rfl := eq_of_beq heq
      rw [← h]
      rfl
  · exact h other

theorem bounds_countUp (h : Counted limit keys counts) (key : κ) :
    ∀ e ∈ countUp key counts, 1 ≤ e.2 ∧ e.2 ≤ (keys ++ [key]).count e.1 := by
  intro e he
  rcases mem_countUp h.nodup he with ⟨hne, hmem⟩ | rfl
  · obtain ⟨hpos, hle⟩ := h.bounds e hmem
    rw [List.count_append]
    exact ⟨hpos, Nat.le_trans hle (Nat.le_add_right _ _)⟩
  · have hle := h.record_le key
    rw [lookup_countUp_self] at hle
    exact ⟨Nat.le_add_left _ _, hle⟩

/-- One request more. -/
theorem record (h : Counted limit keys counts) (key : κ) :
    Counted limit (keys ++ [key]) (decay limit (countUp key counts)) where
  nodup := decay_induction (P := fun counts => (counts.map Prod.fst).Nodup)
    (fun counts hnodup => hnodup.sublist (keys_halve_sublist counts)) limit
    (nodup_keys_countUp h.nodup key)
  length_le := length_decay_le limit _
  bounds := by
    refine decay_induction (P := fun counts =>
      ∀ e ∈ counts, 1 ≤ e.2 ∧ e.2 ≤ (keys ++ [key]).count e.1) ?_ limit (h.bounds_countUp key)
    intro counts hbounds e he
    obtain ⟨n, hn, hhalf, hpos⟩ := mem_halve he
    have hle := (hbounds _ hn).2
    exact ⟨hpos, hhalf ▸ Nat.le_trans (Nat.div_le_self n 2) hle⟩
  exact := by
    intro few hfew hsubset other
    -- each counted key was asked for, so there are no more of them than fit
    have hkeys : (countUp key counts).map Prod.fst ⊆ few := by
      intro k hk
      obtain ⟨e, he, rfl⟩ := List.mem_map.1 hk
      obtain ⟨hpos, hle⟩ := h.bounds_countUp key e he
      exact hsubset (List.count_pos_iff.1 (by omega))
    have hlength := (List.subperm_of_subset (nodup_keys_countUp h.nodup key) hkeys).length_le
    rw [List.length_map] at hlength
    rw [decay_of_length_le (Nat.le_trans hlength hfew)]
    have hbefore := h.exact few hfew fun k hk => hsubset (List.mem_append_left _ hk)
    exact lookup_countUp_eq hbefore key other

end Counted

/-! ### Histories -/

omit [LawfulBEq κ] in
theorem requests_makeRoom (c : Cache κ β) (queue : List κ) :
    (c.makeRoom queue).requests = c.requests := by
  induction queue generalizing c with
  | nil => rfl
  | cons oldest rest ih =>
      unfold makeRoom
      split
      · rfl
      · exact ih _

omit [LawfulBEq κ] in
theorem requests_insert (c : Cache κ β) (key : κ) (value : β) :
    (c.insert key value).requests = c.requests := by
  unfold insert
  split
  · rfl
  · exact c.requests_makeRoom c.order

omit [LawfulBEq κ] in
theorem requests_get? (c : Cache κ β) (key : κ) : (c.get? key).2.requests = c.requests := by
  unfold get?
  split
  · rfl
  · rfl

theorem counted_run (capacity : Nat) (history : List (Operation κ β)) :
    Counted (trackedPerSlot * max capacity 1) (asked history) (run capacity history).requests := by
  induction history using List.reverseRecOn with
  | nil => exact .nil _
  | append_singleton history op ih =>
      rw [run_concat, asked_concat]
      cases op with
      | insert key value => rwa [step, requests_insert]
      | get key => rwa [step, requests_get?]
      | record key =>
          rw [← capacity_run capacity history] at ih ⊢
          exact ih.record key
      | clear => exact .nil _

/-- What a store knows of the requests of a history, and what it makes of one more request. -/
structure Tallies (capacity : Nat) (history : List (Operation κ β)) (c : Cache κ β) : Prop where
  /-- No more keys are counted than there is room for. -/
  tracked_le : c.requests.length ≤ 4 * max capacity 1
  /-- Each key is counted once. -/
  nodup_keys : (c.requests.map Prod.fst).Nodup
  /-- What is counted was asked for, and not less often. -/
  bounds : ∀ e ∈ c.requests, 1 ≤ e.2 ∧ e.2 ≤ (asked history).count e.1
  frequency_le : ∀ key, c.frequency key ≤ (asked history).count key
  /-- The answer to a request is no larger than the number of requests. -/
  record_le : ∀ key, (c.record key).1 ≤ (asked (history ++ [.record key])).count key
  /-- The counts are exact where no more keys were asked for than there is room for. -/
  frequency_eq : ∀ few : List κ, few.length ≤ 4 * max capacity 1 → asked history ⊆ few →
    ∀ key, c.frequency key = (asked history).count key
  record_eq : ∀ (few : List κ) (key : κ), few.length ≤ 4 * max capacity 1 →
    asked (history ++ [.record key]) ⊆ few →
      (c.record key).1 = (asked (history ++ [.record key])).count key
  /-- Halving the counts comes to an end with the first round after which they fit. -/
  halving_ends : ∀ key, ∃ n, (c.record key).2.requests = halve^[n] (countUp key c.requests) ∧
    (halve^[n] (countUp key c.requests)).length ≤ 4 * max capacity 1 ∧
    ∀ m < n, 4 * max capacity 1 < (halve^[m] (countUp key c.requests)).length

omit [BEq κ] [LawfulBEq κ] in
/-- A store of any capacity, after any history of operations on any keys, has room for its counts.
None of them is larger than the number of requests since the store was last cleared, and they are
exact as long as no more keys were asked for than four for each value that may be stored. -/
theorem tallies_run (capacity : Nat) (history : List (Operation CacheKey β)) :
    Tallies capacity history (run capacity history) := by
  have hcounted := counted_run capacity history
  have hasked (key : CacheKey) : asked (history ++ [.record key]) = asked history ++ [key] :=
    asked_concat history _
  constructor
  case tracked_le => exact hcounted.length_le
  case nodup_keys => exact hcounted.nodup
  case bounds => exact hcounted.bounds
  case frequency_le => exact hcounted.frequency_le
  case record_le =>
    intro key
    rw [hasked]
    exact hcounted.record_le key
  case frequency_eq => exact hcounted.exact
  case record_eq =>
    intro few key hfew hsubset
    rw [hasked] at hsubset ⊢
    have hbefore := hcounted.exact few hfew fun k hk => hsubset (List.mem_append_left _ hk)
    exact Counted.lookup_countUp_eq hbefore key key
  case halving_ends =>
    intro key
    obtain ⟨n, heq, hfits, hbefore⟩ :=
      exists_decay_eq (trackedPerSlot * (run capacity history).capacity)
        (countUp key (run capacity history).requests)
    rw [capacity_run] at hfits hbefore
    exact ⟨n, heq, hfits, hbefore⟩

end Counting

end Cache
end AskSql
