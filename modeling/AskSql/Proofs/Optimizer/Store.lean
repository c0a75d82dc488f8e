import AskSql.Optimizer.Cache
import AskSql.Proofs.Text.Sorted

/-!
# The map and the queue of a store

A store is in step (`Cache.InStep`) where its queue is the row of the keys of its map, no key stands
there twice, and there are no more of them than the capacity allows.  An empty store is, and each
operation keeps it so.  In such a store making room comes to nothing, or to the loss of the one key
at the front of the queue and of its value (`Cache.InStep.makeRoom_order`): the loop never goes
round twice, and the queue never runs dry.
-/

namespace AskSql
namespace Cache

variable {κ β : Type} [BEq κ]

section Lookups

theorem fst_get? (c : Cache κ β) (key : κ) : (c.get? key).1 = c.entries.lookup key := by
  unfold get?
  split
  · next h => exact h.symm
  · next h => exact h.symm

theorem entries_get? (c : Cache κ β) (key : κ) : (c.get? key).2.entries = c.entries := by
  unfold get?
  split
  · rfl
  · rfl

theorem insert_of_mem {c : Cache κ β} {key : κ} (h : (c.entries.lookup key).isSome = true)
    (value : β) : c.insert key value = { c with entries := replace c.entries key value } := by
  unfold insert
  rw [if_pos h]

theorem insert_of_not_mem {c : Cache κ β} {key : κ} (h : (c.entries.lookup key).isSome = false)
    (value : β) :
    c.insert key value =
      { c.makeRoom c.order with
        entries := (c.makeRoom c.order).entries ++ [(key, value)]
        order := (c.makeRoom c.order).order ++ [key] } := by
  unfold insert
  rw [if_neg (by simp [h])]

@[simp] theorem capacity_makeRoom (c : Cache κ β) (queue : List κ) :
    (c.makeRoom queue).capacity = c.capacity := by
  induction queue generalizing c with
  | nil => rfl
  | cons oldest rest ih =>
      unfold makeRoom
      split
      · rfl
      · exact ih _

@[simp] theorem capacity_insert (c : Cache κ β) (key : κ) (value : β) :
    (c.insert key value).capacity = c.capacity := by
  unfold insert
  split
  · rfl
  · exact c.capacity_makeRoom c.order

/-- Where there is room, none has to be made. -/
theorem makeRoom_of_lt {c : Cache κ β} (h : c.size < c.capacity) (queue : List κ) :
    c.makeRoom queue = { c with order := queue } := by
  cases queue with
  | nil => rfl
  | cons oldest rest => rw [makeRoom, if_pos h]

/-- Making room brings in no entry. -/
theorem mem_of_mem_makeRoom {c : Cache κ β} {queue : List κ} {e : κ × β}
    (h : e ∈ (c.makeRoom queue).entries) : e ∈ c.entries := by
  induction queue generalizing c with
  | nil => exact h
  | cons oldest rest ih =>
      unfold makeRoom at h
      split at h
      · exact h
      · exact (List.mem_filter.1 (ih h)).1

variable [LawfulBEq κ]

theorem isSome_lookup_iff {entries : List (κ × β)} {key : κ} :
    (entries.lookup key).isSome = true ↔ key ∈ entries.map Prod.fst := by
  rw [List.lookup_isSome_iff, List.mem_map]
  constructor
  · rintro ⟨e, he, hkey⟩
    exact ⟨e, he, (eq_of_beq hkey).symm⟩
  · rintro ⟨e, he, rfl⟩
    exact ⟨e, he, beq_self_eq_true _⟩

/-- Storing a value brings in no other one. -/
theorem mem_insert {c : Cache κ β} {key : κ} {value : β} {e : κ × β}
    (h : e ∈ (c.insert key value).entries) : e ∈ c.entries ∨ e = (key, value) := by
  unfold insert at h
  split at h
  · obtain ⟨d, hd, rfl⟩ := List.mem_map.1 h
    split
    · next hkey =>
        obtain rfl := eq_of_beq hkey
        exact .inr rfl
    · exact .inl hd
  · rw [List.mem_append, List.mem_singleton] at h
    exact h.imp_left mem_of_mem_makeRoom

omit [LawfulBEq κ] in
theorem keys_replace (entries : List (κ × β)) (key : κ) (value : β) :
    (replace entries key value).map Prod.fst = entries.map Prod.fst := by
  rw [replace, List.map_map]
  refine List.map_congr_left fun e _ => ?_
  simp only [Function.comp_apply]
  split
  · rfl
  · rfl

omit [LawfulBEq κ] in
theorem lookup_replace_self {entries : List (κ × β)} {key : κ}
    (h : (entries.lookup key).isSome = true) (value : β) :
    (replace entries key value).lookup key = some value := by
  induction entries with
  | nil => cases h
  | cons e rest ih =>
      obtain ⟨k, v⟩ := e
      rw [replace, List.map_cons, ← replace]
      cases hkey : key == k with
      | true => simp [List.lookup_cons, hkey]
      | false =>
          rw [List.lookup_cons, hkey] at h
          simpa [List.lookup_cons, hkey] using ih h

theorem lookup_replace_of_ne (entries : List (κ × β)) {key other : κ} (h : other ≠ key)
    (value : β) : (replace entries key value).lookup other = entries.lookup other := by
  induction entries with
  | nil => rfl
  | cons e rest ih =>
      obtain ⟨k, v⟩ := e
      rw [replace, List.map_cons, ← replace]
      split
      · next hkey =>
          obtain rfl := eq_of_beq hkey
          simp only [List.lookup_cons, beq_false_of_ne h, ih]
      · simp only [List.lookup_cons, ih]

theorem lookup_insert_self (c : Cache κ β) (key : κ) (value : β) :
    (c.insert key value).entries.lookup key = some value := by
  cases hmem : (c.entries.lookup key).isSome with
  | true =>
      rw [insert_of_mem hmem]
      exact lookup_replace_self hmem value
  | false =>
      have habsent : (c.makeRoom c.order).entries.lookup key = none := by
        rw [← Option.not_isSome_iff_eq_none, isSome_lookup_iff]
        intro hkey
        obtain ⟨e, he, rfl⟩ := List.mem_map.1 hkey
        have hpresent := isSome_lookup_iff.2 (List.mem_map_of_mem (mem_of_mem_makeRoom he))
        rw [hmem] at hpresent
        cases hpresent
      rw [insert_of_not_mem hmem]
      simp [List.lookup_append, habsent]

end Lookups

/-- The queue is the row of the keys of the map, without repetition, and there is no more than the
store has room for. -/
structure InStep (c : Cache κ β) : Prop where
  keys_eq : c.entries.map Prod.fst = c.order
  nodup : c.order.Nodup
  size_le : c.size ≤ c.capacity

namespace InStep

omit [BEq κ] in
theorem length_order {c : Cache κ β} (h : c.InStep) : c.order.length = c.size := by
  rw [← h.keys_eq, List.length_map, size]

omit [BEq κ] in
theorem empty (capacity : Nat) : (Cache.empty capacity : Cache κ β).InStep :=
  ⟨rfl, List.nodup_nil, Nat.zero_le _⟩

theorem get? {c : Cache κ β} (h : c.InStep) (key : κ) : (c.get? key).2.InStep := by
  unfold Cache.get?
  split
  · exact ⟨h.keys_eq, h.nodup, h.size_le⟩
  · exact ⟨h.keys_eq, h.nodup, h.size_le⟩

theorem record {c : Cache κ β} (h : c.InStep) (key : κ) : (c.record key).2.InStep :=
  ⟨h.keys_eq, h.nodup, h.size_le⟩

omit [BEq κ] in
theorem clear (c : Cache κ β) : c.clear.InStep :=
  ⟨rfl, List.nodup_nil, Nat.zero_le _⟩

variable [LawfulBEq κ]

theorem isSome_lookup_iff_mem_order {c : Cache κ β} (h : c.InStep) {key : κ} :
    (c.entries.lookup key).isSome = true ↔ key ∈ c.order := by
  rw [isSome_lookup_iff, h.keys_eq]

/-- Without its oldest key a map is the rest of its entries. -/
theorem remove_head {entries : List (κ × β)} {oldest : κ} {rest : List κ}
    (hkeys : entries.map Prod.fst = oldest :: rest) (hnodup : (oldest :: rest).Nodup) :
    remove entries oldest = entries.tail ∧ entries.tail.map Prod.fst = rest := by
  cases entries with
  | nil => cases hkeys
  | cons e es =>
      obtain ⟨rfl, hrest⟩ := List.cons.inj hkeys
      refine ⟨?_, hrest⟩
      have hothers : ∀ d ∈ es, (!(e.1 == d.1)) = true := by
        intro d hd
        have hmem : d.1 ∈ rest := hrest ▸ List.mem_map_of_mem hd
        have hne : e.1 ≠ d.1 := fun heq => (List.nodup_cons.1 hnodup).1 (heq ▸ hmem)
        rw [beq_false_of_ne hne, Bool.not_false]
      rw [remove, List.filter_cons, if_neg (by simp), List.filter_eq_self.2 hothers, List.tail_cons]

/-- Making room takes out the oldest key, or none where there is room. -/
theorem makeRoom_order {c : Cache κ β} (h : c.InStep) :
    c.makeRoom c.order =
      if c.size < c.capacity then c
      else { c with
        entries := c.entries.tail, order := c.order.tail, evictions := c.evictions + 1 } := by
  have hpos := c.capacity_pos
  have hlength := h.length_order
  split
  · next hroom => rw [makeRoom_of_lt hroom]
  · next hfull =>
      cases horder : c.order with
      | nil =>
          rw [horder, List.length_nil] at hlength
          omega
      | cons oldest rest =>
          obtain ⟨hentries, -⟩ := remove_head (h.keys_eq.trans horder) (horder ▸ h.nodup)
          rw [makeRoom, if_neg hfull, hentries, List.tail_cons]
          -- one key less is room enough, so that the loop ends with the next look at the queue
          refine makeRoom_of_lt ?_ rest
          have hsize := h.size_le
          simp only [size, List.length_tail] at hsize ⊢
          omega

/-- A new key becomes the youngest one. -/
theorem insert_fresh {c : Cache κ β} (h : c.InStep) {key : κ}
    (hfresh : (c.entries.lookup key).isSome = false) (value : β) :
    c.insert key value =
      if c.size < c.capacity then
        { c with entries := c.entries ++ [(key, value)], order := c.order ++ [key] }
      else
        { c with
          entries := c.entries.tail ++ [(key, value)], order := c.order.tail ++ [key]
          evictions := c.evictions + 1 } := by
  rw [insert_of_not_mem hfresh, h.makeRoom_order]
  split
  · rfl
  · rfl

omit [BEq κ] [LawfulBEq κ] in
theorem nodup_snoc {keys : List κ} {key : κ} (h : keys.Nodup) (habsent : key ∉ keys) :
    (keys ++ [key]).Nodup := by
  rw [← List.concat_eq_append]
  exact h.concat habsent

theorem insert {c : Cache κ β} (h : c.InStep) (key : κ) (value : β) :
    (c.insert key value).InStep := by
  have hpos := c.capacity_pos
  have hsize := h.size_le
  cases hmem : (c.entries.lookup key).isSome with
  | true =>
      rw [insert_of_mem hmem]
      refine ⟨(keys_replace _ _ _).trans h.keys_eq, h.nodup, ?_⟩
      simpa only [size, replace, List.length_map] using hsize
  | false =>
      have habsent : key ∉ c.order := by
        rw [← h.isSome_lookup_iff_mem_order, hmem]
        exact Bool.false_ne_true
      rw [h.insert_fresh hmem]
      split
      -- with room the key goes behind the others
      · next hroom =>
          refine ⟨?_, ?_, ?_⟩
          · rw [List.map_append, h.keys_eq]
            rfl
          · exact nodup_snoc h.nodup habsent
          · simpa only [size, List.length_append, List.length_singleton, Nat.succ_le_iff] using hroom
      -- without room the oldest one goes first
      · next hfull =>
          refine ⟨?_, ?_, ?_⟩
          · rw [List.map_append, List.map_tail, h.keys_eq]
            rfl
          · exact nodup_snoc h.nodup.tail fun hkey => habsent (List.mem_of_mem_tail hkey)
          · simp only [size, List.length_append, List.length_tail, List.length_singleton]
              at hsize ⊢
            omega

end InStep
end Cache
end AskSql
