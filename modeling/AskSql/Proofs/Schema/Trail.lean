import AskSql.Proofs.Schema.JoinPath
import Mathlib.Data.List.Nodup

/-!
# Join paths are trails

The search for a join path goes on from a table with the very path on which that table was met.  So
a path that is found does not branch: each of its steps starts from the table that the step before
it brings in, and the last one brings in the target (`Schema.trail_joinPath?`).  Tables are told
apart by the normal forms of their names.
-/

namespace AskSql

/-- The names of the two tables of a step, in normal form. -/
def Hop.ends (hop : Hop) : String × String :=
  (Name.normalize hop.fromTable, Name.normalize hop.toTable)

/-- The name of the table that a step brings in, in normal form. -/
def Hop.key (hop : Hop) : String :=
  Name.normalize hop.toTable

/-- Steps from the first name to the last one, each of them from where the one before it ends. -/
inductive Trail : String → List (String × String) → String → Prop
  | nil (name : String) : Trail name [] name
  | cons {first next last : String} {steps : List (String × String)}
      (h : Trail next steps last) : Trail first ((first, next) :: steps) last

namespace Trail

variable {first last : String} {steps : List (String × String)}

theorem concat (h : Trail first steps last) (next : String) :
    Trail first (steps ++ [(last, next)]) next := by
  induction h with
  | nil name => exact .cons (.nil next)
  | cons _ ih => exact .cons ih

theorem cons_inv {step : String × String} (h : Trail first (step :: steps) last) :
    step.1 = first ∧ Trail step.2 steps last := by
  cases h with
  | cons h => exact ⟨rfl, h⟩

/-- A step starts at the first name, or where some step ends. -/
theorem fst_mem (h : Trail first steps last) :
    ∀ step ∈ steps, step.1 = first ∨ step.1 ∈ steps.map Prod.snd := by
  induction h with
  | nil => exact fun _ hmem => absurd hmem List.not_mem_nil
  | cons _ ih =>
      rintro step (_ | ⟨_, hmem⟩)
      · exact .inl rfl
      · rcases ih step hmem with heq | hmem
        · exact .inr (heq ▸ List.mem_cons_self)
        · exact .inr (List.mem_cons_of_mem _ hmem)

/-- A trail that goes anywhere ends where its last step ends. -/
theorem eq_nil_or_mem (h : Trail first steps last) : steps = [] ∨ last ∈ steps.map Prod.snd := by
  induction h with
  | nil => exact .inl rfl
  | @cons _ next _ steps h ih =>
      refine .inr ?_
      rcases ih with rfl | hmem
      · cases h with
        | nil => exact List.mem_cons_self
      · exact List.mem_cons_of_mem _ hmem

/-- No step comes behind one that reaches the end, if no name is reached twice. -/
theorem eq_nil_of_reached {before after : List (String × String)} {name : String}
    (h : Trail first (before ++ (name, last) :: after) last)
    (hnodup : ((before ++ (name, last) :: after).map Prod.snd).Nodup) : after = [] := by
  induction before generalizing first with
  | nil =>
      cases h with
      | cons h =>
          rcases h.eq_nil_or_mem with hnil | hmem
          · exact hnil
          · exact absurd hmem (List.nodup_cons.1 hnodup).1
  | cons step before ih =>
      cases h with
      | cons h => exact ih h (List.nodup_cons.1 hnodup).2

end Trail

namespace Schema

variable {s : Schema} {start : List String}

/-- The tables that a path brings in are new, and no two of them are the same. -/
theorem Leads.keys_new {path : List Hop} (h : s.Leads start path) :
    (path.map Hop.key).Nodup ∧ ∀ hop ∈ path, hop.key ∉ start := by
  induction h with
  | nil => exact ⟨List.nodup_nil, fun _ hmem => absurd hmem List.not_mem_nil⟩
  | @concat path hop _ _ _ hto ih =>
      obtain ⟨hnodup, hnew⟩ := ih
      obtain ⟨hstart, hpath⟩ := not_or.1 (mt List.mem_append.2 hto)
      constructor
      · rw [List.map_append, List.map_singleton, ← List.concat_eq_append]
        exact hnodup.concat hpath
      · exact List.forall_mem_append.2 ⟨hnew, List.forall_mem_singleton.2 hstart⟩

/-- No table is reached twice. -/
theorem Leads.nodup {path : List Hop} (h : s.Leads start path) (hstart : start.Nodup) :
    (reached start path).Nodup := by
  obtain ⟨hnodup, hnew⟩ := h.keys_new
  refine List.nodup_append.2 ⟨hstart, hnodup, fun a ha b hb hab => ?_⟩
  obtain ⟨hop, hhop, rfl⟩ := List.mem_map.1 hb
  obtain rfl : a = hop.key := hab
  exact hnew hop hhop ha

/-- The path is a trail from one of the tables at the start. -/
def TrailsTo (start : List String) (name : String) (path : List Hop) : Prop :=
  ∃ first ∈ start, Trail first (path.map Hop.ends) name

theorem TrailsTo.concat {path : List Hop} {name : String} {hop : Hop}
    (h : TrailsTo start name path) (hfrom : Name.normalize hop.fromTable = name) :
    TrailsTo start (Name.normalize hop.toTable) (path ++ [hop]) := by
  obtain ⟨first, hfirst, htrail⟩ := h
  refine ⟨first, hfirst, ?_⟩
  rw [List.map_append, List.map_singleton, Hop.ends, hfrom]
  exact htrail.concat _

/-- The steps from one table, which was met on a trail, make the trails longer by one step. -/
theorem expand_trails (target : String) (visited : List String) {name : String} {path : List Hop}
    {queue : List (String × List Hop)} {hops : List Hop} (hpath : TrailsTo start name path)
    (hqueue : ∀ e ∈ queue, TrailsTo start (Name.normalize e.1) e.2)
    (hhops : ∀ hop ∈ hops, Name.normalize hop.fromTable = name) :
    (∀ found, expand target path visited queue hops = .found found →
        TrailsTo start target found) ∧
      ∀ visited' queue', expand target path visited queue hops = .pending visited' queue' →
        ∀ e ∈ queue', TrailsTo start (Name.normalize e.1) e.2 := by
  -- along the hops: one of them meets the target, or each makes a longer trail
  induction hops generalizing visited queue with
  | nil =>
      refine ⟨nofun, fun _ _ h => ?_⟩
      obtain ⟨-, rfl⟩ := Expansion.pending.inj h
      exact hqueue
  | cons hop hops ih =>
      obtain ⟨hfrom, hrest⟩ := List.forall_mem_cons.1 hhops
      have hlonger := hpath.concat hfrom
      rw [expand]
      split
      · exact ih visited hqueue hrest
      · by_cases htarget : Name.normalize hop.toTable = target
        · rw [if_pos (beq_iff_eq.2 htarget)]
          refine ⟨fun found h => ?_, fun _ _ h => by cases h⟩
          obtain rfl := Expansion.found.inj h
          rwa [← htarget]
        · rw [if_neg fun h => htarget (beq_iff_eq.1 h)]
          exact ih _ (List.forall_mem_append.2 ⟨hqueue, List.forall_mem_singleton.2 hlonger⟩) hrest

theorem search_trails {target : String} {n : Nat} {visited : List String}
    {queue : List (String × List Hop)} {found : List Hop}
    (hqueue : ∀ e ∈ queue, TrailsTo start (Name.normalize e.1) e.2)
    (h : s.search target n visited queue = some found) : TrailsTo start target found := by
  -- round by round: a trail leads to each table in the queue
  induction n generalizing visited queue with
  | zero => cases h
  | succ n ih =>
      cases queue with
      | nil => cases h
      | cons e queue =>
          obtain ⟨table, path⟩ := e
          obtain ⟨hpath, hqueue⟩ := List.forall_mem_cons.1 hqueue
          obtain ⟨hfound, hpending⟩ := expand_trails target visited hpath hqueue
            fun hop hhop => (hopsFrom_spec (s := s) hhop).2
          rw [search] at h
          split at h
          · next hexpand =>
              obtain rfl := Option.some.inj h
              exact hfound _ hexpand
          · next hexpand => exact ih (hpending _ _ hexpand) h

/-- A join path is a trail from one of the tables that are there to its target. -/
theorem trail_joinPath? {reachable : List String} {target : String} {path : List Hop}
    (h : s.joinPath? reachable target = some path) :
    TrailsTo (reachable.map Name.normalize) (Name.normalize target) path := by
  unfold joinPath? at h
  dsimp only at h
  split at h
  · next hthere =>
      obtain rfl := Option.some.inj h
      exact ⟨_, List.contains_iff_mem.1 hthere, .nil _⟩
  · refine search_trails (fun e he => ?_) h
    obtain ⟨name, hname, rfl⟩ := List.mem_map.1 he
    refine ⟨Name.normalize name, List.mem_map_of_mem hname, ?_⟩
    rw [normalize_tableName]
    exact .nil _

end Schema

end AskSql
