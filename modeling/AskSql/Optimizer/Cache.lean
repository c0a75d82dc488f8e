/-!
# A bounded store of results

The store keeps the latest results up to its capacity: a map from keys to values, and a queue of the
keys, the oldest first, by which the oldest values make room for new ones.  Beside it stands a count
of the requests for each key.  Where too many keys are counted all counts are halved, and keys whose
count comes to nothing are forgotten.
-/

namespace AskSql

/-- A text with its hash, as a key.  Texts may share a hash, so both have to be the same. -/
structure CacheKey where
  canonical : String
  hash : UInt64

instance : BEq CacheKey where
  beq a b := a.hash == b.hash && a.canonical == b.canonical

instance : LawfulBEq CacheKey where
  eq_of_beq {a b} h := by
    obtain ⟨hhash, hcanonical⟩ := Bool.and_eq_true_iff.1 h
    cases a
    cases b
    exact congr (congrArg CacheKey.mk (eq_of_beq hcanonical)) (eq_of_beq hhash)
  rfl {a} := Bool.and_eq_true_iff.2 ⟨beq_self_eq_true a.hash, beq_self_eq_true a.canonical⟩

/-- A bounded store of values by their keys. -/
structure Cache (κ β : Type) where
  capacity : Nat
  /-- There is room for one value at least. -/
  capacity_pos : 0 < capacity
  /-- The map from keys to values. -/
  entries : List (κ × β) := []
  /-- The queue of the keys, the oldest first. -/
  order : List κ := []
  /-- How often each key was asked for. -/
  requests : List (κ × Nat) := []
  hits : Nat := 0
  misses : Nat := 0
  evictions : Nat := 0

/-- Figures of a store. -/
structure CacheStats where
  entries : Nat
  capacity : Nat
  hits : Nat
  misses : Nat
  evictions : Nat
  /-- The number of keys that are counted. -/
  tracked : Nat
  deriving DecidableEq, Repr

namespace Cache

variable {κ β : Type}

/-- An empty store. -/
def empty (capacity : Nat) : Cache κ β where
  capacity := max capacity 1
  capacity_pos := by omega

/-- The number of values. -/
def size (c : Cache κ β) : Nat :=
  c.entries.length

/-- There are no values. -/
def isEmpty (c : Cache κ β) : Bool :=
  c.entries.isEmpty

/-- The value of a key, with the store that has counted the look-up. -/
def get? [BEq κ] (c : Cache κ β) (key : κ) : Option β × Cache κ β :=
  match c.entries.lookup key with
  | some v => (some v, { c with hits := c.hits + 1 })
  | none => (none, { c with misses := c.misses + 1 })

/-- The entries with another value for a key. -/
def replace [BEq κ] (entries : List (κ × β)) (key : κ) (value : β) : List (κ × β) :=
  entries.map fun e => if key == e.1 then (e.1, value) else e

/-- The entries without a key. -/
def remove [BEq κ] (entries : List (κ × β)) (key : κ) : List (κ × β) :=
  entries.filter fun e => !(key == e.1)

/-- Takes keys from the front of a queue, and their values from the map, until there is room for one
value more or the queue is empty; what is left of the queue is the store's. -/
def makeRoom [BEq κ] (c : Cache κ β) : List κ → Cache κ β
  | [] => { c with order := [] }
  | oldest :: rest =>
    if c.size < c.capacity then { c with order := oldest :: rest }
    else
      makeRoom { c with entries := remove c.entries oldest, evictions := c.evictions + 1 } rest

/-- Stores a value.  A key that is there keeps its place; a new one is the youngest, and the
oldest ones make room for it. -/
def insert [BEq κ] (c : Cache κ β) (key : κ) (value : β) : Cache κ β :=
  if (c.entries.lookup key).isSome then
    { c with entries := replace c.entries key value }
  else
    let c := c.makeRoom c.order
    { c with entries := c.entries ++ [(key, value)], order := c.order ++ [key] }

/-- Adds one to the count of a key. -/
def countUp [BEq κ] (key : κ) : List (κ × Nat) → List (κ × Nat)
  | [] => [(key, 1)]
  | (k, n) :: rest => if key == k then (k, n + 1) :: rest else (k, n) :: countUp key rest

/-- Halves all counts and drops those that come to nothing. -/
def halve (counts : List (κ × Nat)) : List (κ × Nat) :=
  (counts.map fun (k, n) => (k, n / 2)).filter fun e => 0 < e.2

/-- What halving makes smaller. -/
def weight : List (κ × Nat) → Nat
  | [] => 0
  | e :: rest => e.2 + 1 + weight rest

theorem weight_halve_le (counts : List (κ × Nat)) : weight (halve counts) ≤ weight counts := by
  induction counts with
  | nil => simp [halve]
  | cons e rest ih =>
    simp only [halve, List.map_cons, List.filter_cons] at ih ⊢
    split <;> simp only [weight] <;> omega

theorem weight_halve_lt {counts : List (κ × Nat)} (h : counts ≠ []) :
    weight (halve counts) < weight counts := by
  cases counts with
  | nil => exact absurd rfl h
  | cons e rest =>
    have ih := weight_halve_le rest
    simp only [halve, List.map_cons, List.filter_cons] at ih ⊢
    split
    · next hp =>
      simp only [decide_eq_true_eq] at hp
      simp only [weight]
      omega
    · simp only [weight]
      omega

/-- Halves the counts until there are no more than `limit`. -/
def decay (limit : Nat) (counts : List (κ × Nat)) : List (κ × Nat) :=
  if counts.length ≤ limit then counts else decay limit (halve counts)
termination_by weight counts
decreasing_by
  exact weight_halve_lt (by rintro rfl; simp at *)

theorem length_decay_le (limit : Nat) (counts : List (κ × Nat)) :
    (decay limit counts).length ≤ limit := by
  fun_induction decay limit counts with
  | case1 counts h => exact h
  | case2 counts h ih => exact ih

/-- The number of keys that may be counted for each value that may be stored. -/
def trackedPerSlot : Nat := 4

/-- How often a key was asked for, as far as is remembered. -/
def frequency [BEq κ] (c : Cache κ β) (key : κ) : Nat :=
  (c.requests.lookup key).getD 0

/-- Counts a request for a key: the count, and the store that remembers it. -/
def record [BEq κ] (c : Cache κ β) (key : κ) : Nat × Cache κ β :=
  let counts := countUp key c.requests
  ((counts.lookup key).getD 0, { c with requests := decay (trackedPerSlot * c.capacity) counts })

/-- Forgets all values and counts. -/
def clear (c : Cache κ β) : Cache κ β :=
  { c with entries := [], order := [], requests := [] }

/-- The figures of the store. -/
def stats (c : Cache κ β) : CacheStats where
  entries := c.size
  capacity := c.capacity
  hits := c.hits
  misses := c.misses
  evictions := c.evictions
  tracked := c.requests.length

end Cache

end AskSql
