import AskSql.Proofs.Optimizer.Store
import Mathlib.Data.List.Induction

/-!
# Histories of a store

A history is a list of operations on a store that was empty before.  An insert is fresh if its key is
absent from the map at that moment; the log of a history has for each operation the key that it
stored afresh, if any.  The age of a key is the number of fresh inserts of other keys since its own
latest one; clearing the store ends all ages.

The queue read from its end tells the ages: the key at place `a` from the youngest is the key of age
`a`, and there is one for each age below the capacity (`Cache.Ages`).  Each operation keeps that so,
and the other properties of the store as a bounded queue follow from it (`Cache.Fifo`,
`Cache.boundedFifo_run`).
-/

namespace AskSql
namespace Cache

/-- What is done with a store. -/
inductive Operation (κ β : Type)
  | insert (key : κ) (value : β)
  | get (key : κ)
  | record (key : κ)
  | clear

variable {κ β : Type}

/-- A key is looked up. -/
def Operation.isGet : Operation κ β → Bool
  | .get _ => true
  | _ => false

variable [BEq κ]

/-- The value that is stored under a key, if any. -/
def Operation.stored? (key : κ) : Operation κ β → Option β
  | .insert k value => if k == key then some value else none
  | _ => none

/-- The value that a history stored most recently under a key. -/
def latest? (history : List (Operation κ β)) (key : κ) : Option β :=
  (history.filterMap (Operation.stored? key)).getLast?

/-- The store after an operation. -/
def step (c : Cache κ β) : Operation κ β → Cache κ β
  | .insert key value => c.insert key value
  | .get key => (c.get? key).2
  | .record key => (c.record key).2
  | .clear => c.clear

/-- The store after a history. -/
def run (capacity : Nat) (history : List (Operation κ β)) : Cache κ β :=
  history.foldl step (.empty capacity)

/-- The key that an operation stores afresh, if any. -/
def fresh? (c : Cache κ β) : Operation κ β → Option κ
  | .insert key _ => if (c.entries.lookup key).isSome then none else some key
  | _ => none

/-- For each operation the key that it stores afresh, if any. -/
def freshFrom (c : Cache κ β) : List (Operation κ β) → List (Option κ)
  | [] => []
  | op :: rest => c.fresh? op :: freshFrom (c.step op) rest

/-- The log of a history. -/
def freshLog (capacity : Nat) (history : List (Operation κ β)) : List (Option κ) :=
  freshFrom (.empty capacity) history

omit [BEq κ] in
/-- The key was stored afresh at `i`, and not again after that. -/
structure LatestFresh (log : List (Option κ)) (key : κ) (i : Nat) : Prop where
  fresh : log[i]? = some (some key)
  last : some key ∉ log.drop (i + 1)

/-- How often another key was stored afresh after `i`. -/
def othersAfter (log : List (Option κ)) (key : κ) (i : Nat) : Nat :=
  (log.drop (i + 1)).countP fun e => e.isSome && e != some key

/-- The number of fresh inserts of other keys since the latest one of this key, if the store was not
cleared since then. -/
def HasAge (log : List (Option κ)) (history : List (Operation κ β)) (key : κ) (age : Nat) : Prop :=
  ∃ i, LatestFresh log key i ∧ Operation.clear ∉ history.drop (i + 1) ∧ othersAfter log key i = age

/-- A store after a history is a map that is bounded by a queue. -/
structure Fifo (capacity : Nat) (history : List (Operation κ β)) (c : Cache κ β) : Prop where
  /-- The queue has each key once. -/
  nodup_order : c.order.Nodup
  /-- The map has each key once. -/
  nodup_keys : (c.entries.map Prod.fst).Nodup
  /-- The keys of the queue are those of the map. -/
  mem_order_iff : ∀ key, key ∈ c.order ↔ (c.entries.lookup key).isSome = true
  /-- The queue is in the order of the latest fresh inserts. -/
  order_by_age : c.order.Pairwise fun older younger => ∃ i j, i < j ∧
    LatestFresh (freshLog capacity history) older i ∧
    LatestFresh (freshLog capacity history) younger j
  size_le : c.size ≤ max capacity 1
  /-- An insert that is not fresh changes one value, and no age. -/
  overwrite : ∀ key value, (c.entries.lookup key).isSome = true →
    (c.insert key value).order = c.order ∧
    (∀ k i, LatestFresh (freshLog capacity (history ++ [.insert key value])) k i ↔
      LatestFresh (freshLog capacity history) k i) ∧
    (c.insert key value).entries.lookup key = some value ∧
    ∀ other, other ≠ key → (c.insert key value).entries.lookup other = c.entries.lookup other
  /-- The latest value of a key is found until the key is too old or the store is cleared. -/
  get_young : ∀ key age, HasAge (freshLog capacity history) history key age →
    age < max capacity 1 →
    ∃ value, latest? history key = some value ∧ (c.get? key).1 = some value
  /-- After that nothing is found. -/
  get_old : ∀ key,
    (∀ age, HasAge (freshLog capacity history) history key age → max capacity 1 ≤ age) →
    (c.get? key).1 = none
  hits_add_misses : c.hits + c.misses = history.countP Operation.isGet
  evictions_add_size : Operation.clear ∉ history →
    c.evictions + c.size = (freshLog capacity history).countP Option.isSome

section Logs

theorem run_concat (capacity : Nat) (history : List (Operation κ β)) (op : Operation κ β) :
    run capacity (history ++ [op]) = (run capacity history).step op := by
  rw [run, List.foldl_append]
  rfl

theorem freshFrom_append (c : Cache κ β) (history later : List (Operation κ β)) :
    freshFrom c (history ++ later) =
      freshFrom c history ++ freshFrom (history.foldl step c) later := by
  induction history generalizing c with
  | nil => rfl
  | cons op rest ih => exact congrArg (c.fresh? op :: ·) (ih (c.step op))

theorem freshLog_concat (capacity : Nat) (history : List (Operation κ β)) (op : Operation κ β) :
    freshLog capacity (history ++ [op]) =
      freshLog capacity history ++ [(run capacity history).fresh? op] :=
  freshFrom_append _ _ _

theorem length_freshFrom (c : Cache κ β) (history : List (Operation κ β)) :
    (freshFrom c history).length = history.length := by
  induction history generalizing c with
  | nil => rfl
  | cons op rest ih => exact congrArg (· + 1) (ih (c.step op))

theorem length_freshLog (capacity : Nat) (history : List (Operation κ β)) :
    (freshLog capacity history).length = history.length :=
  length_freshFrom _ _

theorem latest?_concat (history : List (Operation κ β)) (op : Operation κ β) (key : κ) :
    latest? (history ++ [op]) key = (op.stored? key).or (latest? history key) := by
  rw [latest?, List.filterMap_append]
  cases h : op.stored? key with
  | none => simp [h, latest?]
  | some value => simp [h]

theorem mem_of_latest? [LawfulBEq κ] {history : List (Operation κ β)} {key : κ} {value : β}
    (h : latest? history key = some value) : .insert key value ∈ history := by
  obtain ⟨op, hop, hstored⟩ := List.mem_filterMap.1 (List.mem_of_getLast? h)
  cases op with
  | insert k v =>
      simp only [Operation.stored?, Option.ite_none_right_eq_some, Option.some.injEq,
        beq_iff_eq] at hstored
      obtain ⟨rfl, rfl⟩ := hstored
      exact hop
  | get k => cases hstored
  | record k => cases hstored
  | clear => cases hstored

omit [BEq κ] in
theorem LatestFresh.lt {log : List (Option κ)} {key : κ} {i : Nat} (h : LatestFresh log key i) :
    i < log.length :=
  (List.getElem?_eq_some_iff.1 h.fresh).1

omit [BEq κ] in
/-- What does not store the key afresh leaves its latest fresh insert where it is. -/
theorem latestFresh_concat {log : List (Option κ)} {e : Option κ} {key : κ} (h : e ≠ some key)
    (i : Nat) : LatestFresh (log ++ [e]) key i ↔ LatestFresh log key i := by
  constructor
  · intro hlatest
    -- the new entry is not that of the key
    have hle : i < log.length := by
      have hlt := hlatest.lt
      rw [List.length_append, List.length_singleton] at hlt
      by_contra hge
      obtain rfl : i = log.length := by omega
      have hfresh := hlatest.fresh
      rw [List.getElem?_concat_length] at hfresh
      exact h (Option.some.inj hfresh)
    refine ⟨?_, fun hmem => hlatest.last ?_⟩
    · rw [← hlatest.fresh, List.getElem?_append_left hle]
    · rw [List.drop_append_of_le_length hle]
      exact List.mem_append_left _ hmem
  · intro hlatest
    refine ⟨?_, ?_⟩
    · rw [List.getElem?_append_left hlatest.lt, hlatest.fresh]
    · rw [List.drop_append_of_le_length hlatest.lt, List.mem_append, List.mem_singleton]
      rintro (hmem | heq)
      · exact hlatest.last hmem
      · exact h heq.symm

omit [BEq κ] in
theorem latestFresh_concat_self (log : List (Option κ)) (key : κ) (i : Nat) :
    LatestFresh (log ++ [some key]) key i ↔ i = log.length := by
  constructor
  · intro hlatest
    have hlt := hlatest.lt
    rw [List.length_append, List.length_singleton] at hlt
    by_contra hne
    refine hlatest.last ?_
    rw [List.drop_append_of_le_length (by omega)]
    exact List.mem_append_right _ List.mem_cons_self
  · rintro rfl
    refine ⟨List.getElem?_concat_length, ?_⟩
    rw [List.drop_eq_nil_of_le (by simp)]
    exact List.not_mem_nil

variable [LawfulBEq κ]

theorem othersAfter_concat {log : List (Option κ)} {e : Option κ} {key : κ} (h : e ≠ some key)
    {i : Nat} (hi : i < log.length) :
    othersAfter (log ++ [e]) key i = othersAfter log key i + e.toList.length := by
  rw [othersAfter, List.drop_append_of_le_length hi, List.countP_append, ← othersAfter]
  cases e with
  | none => rfl
  | some k =>
      have hne : (some k != some key) = true := bne_iff_ne.2 h
      simp [hne]

/-- What does not store the key afresh makes it older or not, and clearing ends its age. -/
theorem hasAge_concat {log : List (Option κ)} {history : List (Operation κ β)}
    (hlength : log.length = history.length) {op : Operation κ β} {e : Option κ} {key : κ}
    (h : e ≠ some key) (age : Nat) :
    HasAge (log ++ [e]) (history ++ [op]) key age ↔
      op ≠ .clear ∧ ∃ n, HasAge log history key n ∧ n + e.toList.length = age := by
  have hdrop (i : Nat) (hi : i < log.length) : Operation.clear ∉ (history ++ [op]).drop (i + 1) ↔
      op ≠ .clear ∧ Operation.clear ∉ history.drop (i + 1) := by
    rw [List.drop_append_of_le_length (by omega), List.mem_append, List.mem_singleton, not_or,
      and_comm, eq_comm]
  constructor
  · rintro ⟨i, hlatest, hclear, hage⟩
    rw [latestFresh_concat h] at hlatest
    rw [hdrop i hlatest.lt] at hclear
    rw [othersAfter_concat h hlatest.lt] at hage
    exact ⟨hclear.1, _, ⟨i, hlatest, hclear.2, rfl⟩, hage⟩
  · rintro ⟨hop, n, ⟨i, hlatest, hclear, rfl⟩, hage⟩
    refine ⟨i, (latestFresh_concat h i).2 hlatest, (hdrop i hlatest.lt).2 ⟨hop, hclear⟩, ?_⟩
    rw [othersAfter_concat h hlatest.lt, hage]

omit [LawfulBEq κ] in
/-- A key that has just been stored afresh is of age nought. -/
theorem hasAge_concat_self {log : List (Option κ)} {history : List (Operation κ β)}
    (hlength : log.length = history.length) (op : Operation κ β) (key : κ) (age : Nat) :
    HasAge (log ++ [some key]) (history ++ [op]) key age ↔ age = 0 := by
  have hlog : (log ++ [some key]).drop (log.length + 1) = [] := List.drop_eq_nil_of_le (by simp)
  have hhistory : (history ++ [op]).drop (log.length + 1) = [] :=
    List.drop_eq_nil_of_le (by simp [hlength])
  constructor
  · rintro ⟨i, hlatest, -, rfl⟩
    rw [latestFresh_concat_self] at hlatest
    rw [hlatest, othersAfter, hlog, List.countP_nil]
  · rintro rfl
    refine ⟨log.length, (latestFresh_concat_self _ _ _).2 rfl, ?_, ?_⟩
    · rw [hhistory]
      exact List.not_mem_nil
    · rw [othersAfter, hlog, List.countP_nil]

/-- Since its latest fresh insert all fresh inserts were of other keys. -/
theorem LatestFresh.othersAfter_eq {log : List (Option κ)} {key : κ} {i : Nat}
    (h : LatestFresh log key i) :
    othersAfter log key i = (log.drop (i + 1)).countP Option.isSome := by
  refine List.countP_congr fun e he => ?_
  have hne : (e != some key) = true := bne_iff_ne.2 fun heq => h.last (heq ▸ he)
  rw [hne, Bool.and_true]

/-- The key with more fresh inserts behind it is the older one. -/
theorem LatestFresh.lt_of_othersAfter_lt {log : List (Option κ)} {key other : κ} {i j : Nat}
    (hi : LatestFresh log key i) (hj : LatestFresh log other j)
    (h : othersAfter log other j < othersAfter log key i) : i < j := by
  rw [hi.othersAfter_eq, hj.othersAfter_eq] at h
  by_contra hge
  have hsublist : (log.drop (i + 1)).Sublist (log.drop (j + 1)) :=
    List.drop_sublist_drop_left log (by omega)
  exact absurd (hsublist.countP_le) (Nat.not_le.2 h)

end Logs

section Steps

variable [LawfulBEq κ]

theorem InStep.step {c : Cache κ β} (h : c.InStep) (op : Operation κ β) : (c.step op).InStep := by
  cases op with
  | insert key value => exact h.insert key value
  | get key => exact h.get? key
  | record key => exact h.record key
  | clear => exact .clear c

theorem inStep_run (capacity : Nat) (history : List (Operation κ β)) :
    (run capacity history).InStep := by
  induction history using List.reverseRecOn with
  | nil => exact .empty capacity
  | append_singleton history op ih =>
      rw [run_concat]
      exact ih.step op

/-- What an operation does with the queue: a fresh insert adds its key, and takes out the oldest one
if there is no room; clearing takes out all keys; all other operations leave it as it is. -/
theorem order_step {c : Cache κ β} (h : c.InStep) (op : Operation κ β) :
    (∃ key, c.fresh? op = some key ∧ op ≠ .clear ∧ key ∉ c.order ∧
      (c.step op).order =
        (if c.size < c.capacity then c.order else c.order.tail) ++ [key]) ∨
    c.fresh? op = none ∧ op = .clear ∧ (c.step op).order = [] ∨
    c.fresh? op = none ∧ op ≠ .clear ∧ (c.step op).order = c.order := by
  cases op with
  | insert key value =>
      have hop : Operation.insert key value ≠ .clear := by simp
      cases hmem : (c.entries.lookup key).isSome with
      | true =>
          refine .inr (.inr ⟨if_pos hmem, hop, ?_⟩)
          rw [Cache.step, insert_of_mem hmem]
      | false =>
          refine .inl ⟨key, if_neg (by simp [hmem]), hop, ?_, ?_⟩
          · rw [← h.isSome_lookup_iff_mem_order, hmem]
            exact Bool.false_ne_true
          · rw [Cache.step, h.insert_fresh hmem]
            split
            · rfl
            · rfl
  | get key =>
      refine .inr (.inr ⟨rfl, by simp, ?_⟩)
      simp only [Cache.step, Cache.get?]
      split
      · rfl
      · rfl
  | record key => exact .inr (.inr ⟨rfl, by simp, rfl⟩)
  | clear => exact .inr (.inl ⟨rfl, rfl, rfl⟩)

omit [LawfulBEq κ] in
@[simp] theorem capacity_step (c : Cache κ β) (op : Operation κ β) :
    (c.step op).capacity = c.capacity := by
  cases op with
  | insert key value => exact c.capacity_insert key value
  | get key =>
      simp only [step, get?]
      split
      · rfl
      · rfl
  | record key => rfl
  | clear => rfl

omit [LawfulBEq κ] in
@[simp] theorem capacity_run (capacity : Nat) (history : List (Operation κ β)) :
    (run capacity history).capacity = max capacity 1 := by
  induction history using List.reverseRecOn with
  | nil => rfl
  | append_singleton history op ih => rw [run_concat, capacity_step, ih]

/-- The queue read from its end has the keys by their ages, one for each age below the capacity. -/
def Ages (c : Cache κ β) (log : List (Option κ)) (history : List (Operation κ β)) : Prop :=
  ∀ key age, c.order.reverse[age]? = some key ↔ age < c.capacity ∧ HasAge log history key age

omit [BEq κ] [LawfulBEq κ] in
/-- The queue with a new key at its end, and cut at its front if it is full. -/
theorem getElem?_reverse_fresh {c : Cache κ β} (h : c.InStep) (key : κ) (age : Nat) :
    ((if c.size < c.capacity then c.order else c.order.tail) ++ [key]).reverse[age + 1]? =
      if age + 1 < c.capacity then c.order.reverse[age]? else none := by
  have hlength := h.length_order
  have hsize := h.size_le
  rw [List.reverse_append, List.reverse_singleton, List.singleton_append,
    List.getElem?_cons_succ]
  split
  · next hroom =>
      split
      · rfl
      · refine List.getElem?_eq_none ?_
        rw [List.length_reverse]
        omega
  · next hfull =>
      split
      · next hage =>
          -- the key that is taken out is the oldest, which no age below the capacity reaches
          rw [← List.dropLast_reverse, List.getElem?_dropLast, if_pos]
          rw [List.length_reverse]
          omega
      · refine List.getElem?_eq_none ?_
        rw [List.length_reverse, List.length_tail]
        omega

/-- One operation. -/
theorem Ages.step {c : Cache κ β} {log : List (Option κ)} {history : List (Operation κ β)}
    (hages : c.Ages log history) (h : c.InStep) (hlength : log.length = history.length)
    (op : Operation κ β) : (c.step op).Ages (log ++ [c.fresh? op]) (history ++ [op]) := by
  intro k age
  rw [capacity_step]
  obtain ⟨key, hfresh, hop, habsent, horder⟩ | ⟨hfresh, rfl, horder⟩ | ⟨hfresh, hop, horder⟩ :=
    order_step h op
  · rw [hfresh, horder]
    by_cases hk : some key = some k
    · -- the key itself is the youngest one, and it stands nowhere else
      obtain rfl := Option.some.inj hk
      rw [hasAge_concat_self hlength]
      cases age with
      | zero =>
          have hpos := c.capacity_pos
          simp [hpos]
      | succ age =>
          rw [getElem?_reverse_fresh h]
          refine iff_of_false (fun hsome => ?_) (by omega)
          split at hsome
          · exact habsent (List.mem_reverse.1 (List.mem_of_getElem? hsome))
          · cases hsome
    · -- each other key is one older
      rw [hasAge_concat hlength hk]
      cases age with
      | zero =>
          refine iff_of_false (fun hsome => hk ?_) ?_
          · simpa using hsome
          · rintro ⟨-, -, n, -, hn⟩
            simp at hn
      | succ age =>
          rw [getElem?_reverse_fresh h]
          have hiff := hages k age
          constructor
          · intro hsome
            split at hsome
            · next hlt => exact ⟨hlt, hop, age, (hiff.1 hsome).2, rfl⟩
            · cases hsome
          · rintro ⟨hlt, -, n, hn, hsucc⟩
            obtain rfl : n = age := by simpa using hsucc
            rw [if_pos hlt]
            exact hiff.2 ⟨by omega, hn⟩
  -- clearing ends all ages
  · have hnone : (none : Option κ) ≠ some k := nofun
    rw [hfresh, horder, hasAge_concat hlength hnone]
    refine iff_of_false (fun hsome => ?_) fun hage => hage.2.1 rfl
    simp at hsome
  -- nothing is stored afresh, so all ages stay
  · have hnone : (none : Option κ) ≠ some k := nofun
    rw [hfresh, horder, hasAge_concat hlength hnone, hages k age]
    constructor
    · rintro ⟨hlt, hage⟩
      exact ⟨hlt, hop, age, hage, rfl⟩
    · rintro ⟨hlt, -, n, hage, rfl⟩
      exact ⟨hlt, hage⟩

/-- All operations, by induction on their number. -/
theorem ages_run (capacity : Nat) (history : List (Operation κ β)) :
    (run capacity history).Ages (freshLog capacity history) history := by
  induction history using List.reverseRecOn with
  | nil =>
      intro key age
      refine iff_of_false (fun hsome => ?_) ?_
      · cases hsome
      · rintro ⟨-, i, hlatest, -⟩
        exact absurd hlatest.lt (Nat.not_lt_zero i)
  | append_singleton history op ih =>
      rw [run_concat, freshLog_concat]
      exact ih.step (inStep_run _ _) (length_freshLog _ _) op

/-- What is found after an operation was stored by it, or found before. -/
theorem lookup_step {c : Cache κ β} (h : c.InStep) {op : Operation κ β} {key : κ} {value : β}
    (hfound : (c.step op).entries.lookup key = some value) :
    (op.stored? key).or (c.entries.lookup key) = some value := by
  cases op with
  | insert k v =>
      by_cases hk : k = key
      · subst hk
        rw [Cache.step, lookup_insert_self] at hfound
        simpa [Operation.stored?] using hfound
      · have hbefore : (key, value) ∈ c.entries := by
          obtain hmem | heq := mem_insert (Keyed.mem_of_lookup hfound)
          · exact hmem
          · exact absurd (congrArg Prod.fst heq).symm hk
        have hnodup := h.nodup
        rw [← h.keys_eq] at hnodup
        simpa [Operation.stored?, hk] using Keyed.lookup_of_mem hnodup hbefore
  | get k =>
      rw [Cache.step, entries_get?] at hfound
      exact hfound
  | record k => exact hfound
  | clear => cases hfound

theorem latest?_of_lookup {capacity : Nat} {history : List (Operation κ β)} {key : κ} {value : β}
    (h : (run capacity history).entries.lookup key = some value) :
    latest? history key = some value := by
  induction history using List.reverseRecOn generalizing value with
  | nil => cases h
  | append_singleton history op ih =>
      rw [run_concat] at h
      have hstep := lookup_step (inStep_run _ _) h
      rw [latest?_concat]
      cases hstored : op.stored? key with
      | some v =>
          rw [hstored] at hstep
          exact hstep
      | none =>
          rw [hstored, Option.none_or] at hstep
          rw [Option.none_or, ih hstep]

theorem hits_step {c : Cache κ β} (h : c.InStep) (op : Operation κ β) :
    (c.step op).hits + (c.step op).misses = c.hits + c.misses + op.isGet.toNat := by
  cases op with
  | insert key value =>
      cases hmem : (c.entries.lookup key).isSome with
      | true =>
          rw [Cache.step, insert_of_mem hmem]
          rfl
      | false =>
          rw [Cache.step, h.insert_fresh hmem]
          split
          · rfl
          · rfl
  | get key =>
      simp only [Cache.step, Cache.get?, Operation.isGet, Bool.toNat_true]
      split
      · exact Nat.add_right_comm _ _ _
      · exact (Nat.add_assoc _ _ _).symm
  | record key => rfl
  | clear => rfl

theorem hits_run (capacity : Nat) (history : List (Operation κ β)) :
    (run capacity history).hits + (run capacity history).misses =
      history.countP Operation.isGet := by
  induction history using List.reverseRecOn with
  | nil => rfl
  | append_singleton history op ih =>
      rw [run_concat, hits_step (inStep_run _ _), ih, List.countP_append]
      cases hget : op.isGet with
      | true => simp [hget]
      | false => simp [hget]

/-- A fresh insert takes the place of an entry, or adds one. -/
theorem evictions_step {c : Cache κ β} (h : c.InStep) {op : Operation κ β} (hop : op ≠ .clear) :
    (c.step op).evictions + (c.step op).size =
      c.evictions + c.size + (c.fresh? op).isSome.toNat := by
  cases op with
  | insert key value =>
      cases hmem : (c.entries.lookup key).isSome with
      | true =>
          rw [Cache.step, insert_of_mem hmem]
          simp [fresh?, hmem, size, replace]
      | false =>
          have hpos := c.capacity_pos
          rw [Cache.step, h.insert_fresh hmem]
          -- with room the size grows, and without it a key is evicted
          split
          · simp [fresh?, hmem, size]
            omega
          · next hfull =>
              simp only [size] at hfull
              simp [fresh?, hmem, size]
              omega
  | get key =>
      simp only [Cache.step, size, entries_get?]
      simp only [Cache.get?]
      split
      · rfl
      · rfl
  | record key => rfl
  | clear => exact absurd rfl hop

theorem evictions_run (capacity : Nat) {history : List (Operation κ β)}
    (hclear : Operation.clear ∉ history) :
    (run capacity history).evictions + (run capacity history).size =
      (freshLog capacity history).countP Option.isSome := by
  induction history using List.reverseRecOn with
  | nil => rfl
  | append_singleton history op ih =>
      rw [List.mem_append, List.mem_singleton, not_or] at hclear
      rw [run_concat, evictions_step (inStep_run _ _) (Ne.symm hclear.2), ih hclear.1,
        freshLog_concat, List.countP_append]
      cases (run capacity history).fresh? op with
      | none => rfl
      | some key => rfl

end Steps

section Main

variable [LawfulBEq κ]

/-- Of two keys in the queue the one in front is the older one. -/
theorem order_run_by_age (capacity : Nat) (history : List (Operation κ β)) :
    (run capacity history).order.Pairwise fun older younger => ∃ i j, i < j ∧
      LatestFresh (freshLog capacity history) older i ∧
      LatestFresh (freshLog capacity history) younger j := by
  have hages := ages_run capacity history
  have hreverse (p : Nat) (hp : p < (run capacity history).order.length) :
      (run capacity history).order.reverse[(run capacity history).order.length - 1 - p]? =
        some (run capacity history).order[p] := by
    rw [List.getElem?_reverse (by omega), List.getElem?_eq_some_iff]
    refine ⟨by omega, ?_⟩
    congr 1
    omega
  rw [List.pairwise_iff_getElem]
  intro p q hp hq hpq
  obtain ⟨-, i, hi, -, hage⟩ := (hages _ _).1 (hreverse p hp)
  obtain ⟨-, j, hj, -, hage'⟩ := (hages _ _).1 (hreverse q hq)
  exact ⟨i, j, hi.lt_of_othersAfter_lt hj (by omega), hi, hj⟩

theorem mem_order_iff_hasAge {capacity : Nat} {history : List (Operation κ β)} {key : κ} :
    key ∈ (run capacity history).order ↔
      ∃ age, age < max capacity 1 ∧ HasAge (freshLog capacity history) history key age := by
  rw [← List.mem_reverse, List.mem_iff_getElem?]
  refine exists_congr fun age => ?_
  rw [ages_run capacity history key age, capacity_run]

/-- An insert that is not fresh. -/
theorem overwrite_run {capacity : Nat} {history : List (Operation κ β)} {key : κ}
    (h : ((run capacity history).entries.lookup key).isSome = true) (value : β) :
    ((run capacity history).insert key value).order = (run capacity history).order ∧
    (∀ k i, LatestFresh (freshLog capacity (history ++ [.insert key value])) k i ↔
      LatestFresh (freshLog capacity history) k i) ∧
    ((run capacity history).insert key value).entries.lookup key = some value ∧
    ∀ other, other ≠ key → ((run capacity history).insert key value).entries.lookup other =
      (run capacity history).entries.lookup other := by
  refine ⟨?_, fun k i => ?_, lookup_insert_self _ _ _, fun other hother => ?_⟩
  · rw [insert_of_mem h]
  · have hnone : (none : Option κ) ≠ some k := nofun
    rw [freshLog_concat, fresh?, if_pos h, latestFresh_concat hnone]
  · rw [insert_of_mem h]
    exact lookup_replace_of_ne _ hother value

/-- A store after any history is a map that is bounded by a queue. -/
theorem fifo_run (capacity : Nat) (history : List (Operation κ β)) :
    Fifo capacity history (run capacity history) := by
  have hstep : (run capacity history).InStep := inStep_run capacity history
  constructor
  case nodup_order => exact hstep.nodup
  case nodup_keys => exact hstep.keys_eq ▸ hstep.nodup
  case mem_order_iff => exact fun key => hstep.isSome_lookup_iff_mem_order.symm
  case order_by_age => exact order_run_by_age capacity history
  case size_le =>
    rw [← capacity_run capacity history]
    exact hstep.size_le
  case overwrite => exact fun key value h => overwrite_run h value
  case get_young =>
    intro key age hage hlt
    have hmem := mem_order_iff_hasAge.2 ⟨age, hlt, hage⟩
    obtain ⟨value, hvalue⟩ := Option.isSome_iff_exists.1 (hstep.isSome_lookup_iff_mem_order.2 hmem)
    exact ⟨value, latest?_of_lookup hvalue, (fst_get? _ _).trans hvalue⟩
  case get_old =>
    intro key hold
    have habsent : key ∉ (run capacity history).order := by
      intro hmem
      obtain ⟨age, hlt, hage⟩ := mem_order_iff_hasAge.1 hmem
      have hge := hold age hage
      omega
    rw [fst_get?, ← Option.not_isSome_iff_eq_none, hstep.isSome_lookup_iff_mem_order]
    exact habsent
  case hits_add_misses => exact hits_run capacity history
  case evictions_add_size => exact fun hclear => evictions_run capacity hclear

/-- Whatever is stored under a key, another key finds what it found before, or nothing any more. -/
theorem get?_insert_of_ne {c : Cache κ β} (h : c.InStep) {key other : κ} (hne : other ≠ key)
    (value : β) :
    ((c.insert key value).get? other).1 = (c.get? other).1 ∨
      ((c.insert key value).get? other).1 = none := by
  rw [fst_get?, fst_get?]
  cases hfound : (c.insert key value).entries.lookup other with
  | none => exact .inr rfl
  | some v =>
      left
      have hstep : ((Operation.insert key value).stored? other).or (c.entries.lookup other) =
          some v := lookup_step h hfound
      have hstored : (Operation.insert key value).stored? other = none :=
        if_neg (by simpa using Ne.symm hne)
      rw [hstored, Option.none_or] at hstep
      exact hstep.symm

omit [BEq κ] [LawfulBEq κ] in
/-- A store of any capacity is after any history of operations a map that is bounded by a queue.
Keys that share a hash are as different as others: what is found under the one was stored under it,
and storing a value under the other changes that in no other way than by taking it out. -/
theorem boundedFifo_run (capacity : Nat) (history : List (Operation CacheKey β)) :
    Fifo capacity history (run capacity history) ∧
      ∀ a b : CacheKey, a.hash = b.hash → a.canonical ≠ b.canonical →
        (a == b) = false ∧
        (∀ value, ((run capacity history).get? a).1 = some value →
          Operation.insert a value ∈ history) ∧
        ∀ value, (((run capacity history).insert b value).get? a).1 =
            ((run capacity history).get? a).1 ∨
          (((run capacity history).insert b value).get? a).1 = none := by
  refine ⟨fifo_run capacity history, fun a b _ hcanonical => ?_⟩
  have hne : a ≠ b := fun heq => hcanonical (congrArg CacheKey.canonical heq)
  refine ⟨beq_false_of_ne hne, fun value hfound => ?_, fun value => ?_⟩
  · rw [fst_get?] at hfound
    exact mem_of_latest? (latest?_of_lookup hfound)
  · exact get?_insert_of_ne (inStep_run _ _) hne value

/-- Two keys with one hash in a store for one value: the later one takes the place of the first. -/
example :
    let a : CacheKey := ⟨"orders", 7⟩
    let b : CacheKey := ⟨"customers", 7⟩
    let c : Cache CacheKey Nat := run 1 [.insert a 1, .get b, .insert b 2, .insert b 3]
    (c.get? a).1 = none ∧ (c.get? b).1 = some 3 ∧ c.evictions = 1 ∧ c.misses = 1 := by
  decide

end Main

end Cache
end AskSql
