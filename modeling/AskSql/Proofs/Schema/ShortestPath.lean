import AskSql.Proofs.Schema.Trail
import AskSql.Schema.Relation

/-!
# Join paths are shortest

A chain of relationships leads from some tables to another one, by any number of relationships in
either direction (`Schema.Chain`).  Where there is a chain, a join path is found, and no chain is
shorter than it; where there is none, no path is found (`Schema.joinPath_shortest`).

The search keeps the following (`Schema.Searching`).  What a visited table is linked to has been
visited, unless the table is still in the queue.  No chain to a table in the queue is shorter than
the path on which it was met.  The paths in the queue are in order of their lengths, and the last of
them is longer than the first by one step at most.  So a chain that is no longer than the first path
leads to a visited table (`Schema.Searching.mem_of_chain`), and a table that is met for the first
time was reached by the shortest way.

Each round takes one table out of the queue, and every table that comes in is an end of a
relationship that had not been met (`Schema.unmet`): that bounds the number of rounds.
-/

namespace AskSql

namespace Schema

variable {s : Schema} {start visited visited' : List String} {target : String} {path : List Hop}

/-! ### Chains of relationships -/

/-- A relationship has a table of each name, whichever of them it refers from.  The names are in
normal form. -/
def Links (s : Schema) (a b : String) : Prop :=
  ∃ r ∈ s.relationships,
    Name.normalize r.source.table = a ∧ Name.normalize r.target.table = b ∨
      Name.normalize r.target.table = a ∧ Name.normalize r.source.table = b

/-- So many relationships, one after the other, lead from one of the names at the start to this
name. -/
inductive Chain (s : Schema) (start : List String) : Nat → String → Prop
  | start {name : String} (h : name ∈ start) : Chain s start 0 name
  | step {n : Nat} {a b : String} (h : Chain s start n a) (hlink : s.Links a b) :
      Chain s start (n + 1) b

theorem IsHop.links {hop : Hop} (h : s.IsHop hop) :
    s.Links (Name.normalize hop.fromTable) hop.key := by
  obtain ⟨r, hr, ⟨hsource, htarget⟩ | ⟨htarget, hsource⟩⟩ := h.connects
  · exact ⟨r, hr, .inl ⟨hsource.table_eq.symm, htarget.table_eq.symm⟩⟩
  · exact ⟨r, hr, .inr ⟨htarget.table_eq.symm, hsource.table_eq.symm⟩⟩

/-- A trail of steps makes a chain longer by their number. -/
theorem Chain.trail {n : Nat} {first last : String} (h : s.Chain start n first)
    (hhops : ∀ hop ∈ path, s.IsHop hop) (htrail : Trail first (path.map Hop.ends) last) :
    s.Chain start (n + path.length) last := by
  induction path generalizing n first with
  | nil =>
      cases htrail with
      | nil => exact h
  | cons hop path ih =>
      obtain ⟨hfrom, hrest⟩ := htrail.cons_inv
      obtain ⟨hhop, hpath⟩ := List.forall_mem_cons.1 hhops
      have hlonger : s.Chain start (n + 1) hop.key := by
        subst hfrom
        exact .step h hhop.links
      have hchain := ih hlonger hpath hrest
      rwa [List.length_cons, Nat.add_comm path.length, ← Nat.add_assoc]

/-! ### The steps that leave a table -/

theorem hopFrom?_of_source {table : String} {r : Relationship}
    (h : sameName r.source.table table = true) :
    s.hopFrom? table r = some ⟨s.tableName r.source.table, r.source.column,
      s.tableName r.target.table, r.target.column⟩ := by
  rw [hopFrom?]
  exact if_pos h

theorem hopFrom?_of_target {table : String} {r : Relationship}
    (hsource : ¬ sameName r.source.table table = true)
    (h : sameName r.target.table table = true) :
    s.hopFrom? table r = some ⟨s.tableName r.target.table, r.target.column,
      s.tableName r.source.table, r.source.column⟩ := by
  rw [hopFrom?]
  exact (if_neg hsource).trans (if_pos h)

theorem hopFrom?_of_neither {table : String} {r : Relationship}
    (hsource : ¬ sameName r.source.table table = true)
    (htarget : ¬ sameName r.target.table table = true) : s.hopFrom? table r = none := by
  rw [hopFrom?]
  exact (if_neg hsource).trans (if_neg htarget)

theorem exists_hopFrom?_of_ends {table b : String} {r : Relationship}
    (h : Name.normalize r.source.table = Name.normalize table ∧ Name.normalize r.target.table = b ∨
      Name.normalize r.target.table = Name.normalize table ∧ Name.normalize r.source.table = b) :
    ∃ hop, s.hopFrom? table r = some hop ∧ hop.key = b := by
  by_cases hsource : sameName r.source.table table = true
  · refine ⟨_, hopFrom?_of_source hsource, (s.normalize_tableName _).trans ?_⟩
    -- a relationship of a table with itself is only taken from its source
    rcases h with ⟨-, htarget⟩ | ⟨htarget, hb⟩
    · exact htarget
    · exact htarget.trans ((sameName_iff.1 hsource).symm.trans hb)
  · rcases h with ⟨h, -⟩ | ⟨htarget, hb⟩
    · exact absurd (sameName_iff.2 h) hsource
    · refine ⟨_, hopFrom?_of_target hsource (sameName_iff.2 htarget), ?_⟩
      exact (s.normalize_tableName _).trans hb

/-- The steps from a table go to just those that it is linked to. -/
theorem links_iff_mem_hopsFrom {table b : String} :
    s.Links (Name.normalize table) b ↔ ∃ hop ∈ s.hopsFrom table, hop.key = b := by
  constructor
  · rintro ⟨r, hr, hends⟩
    obtain ⟨hop, hhop, hkey⟩ := exists_hopFrom?_of_ends (s := s) hends
    exact ⟨hop, List.mem_filterMap.2 ⟨r, hr, hhop⟩, hkey⟩
  · rintro ⟨hop, hmem, rfl⟩
    obtain ⟨hhop, hfrom⟩ := hopsFrom_spec hmem
    rw [← hfrom]
    exact hhop.links

/-! ### One round of the search -/

/-- What the steps from one table bring: the tables that were visited before and afterwards, and
the entries that come to the end of the queue. -/
inductive Brings (target : String) (path : List Hop) :
    List String → List Hop → List String → List (String × List Hop) → Prop
  | nil (visited : List String) : Brings target path visited [] visited []
  | known {visited visited' : List String} {hop : Hop} {hops : List Hop}
      {more : List (String × List Hop)} (hknown : hop.key ∈ visited)
      (h : Brings target path visited hops visited' more) :
      Brings target path visited (hop :: hops) visited' more
  | new {visited visited' : List String} {hop : Hop} {hops : List Hop}
      {more : List (String × List Hop)} (hnew : hop.key ∉ visited) (htarget : hop.key ≠ target)
      (h : Brings target path (hop.key :: visited) hops visited' more) :
      Brings target path visited (hop :: hops) visited' ((hop.toTable, path ++ [hop]) :: more)

variable {hops : List Hop} {queue queue' more : List (String × List Hop)}

section expand

variable {hop : Hop}

theorem expand_known (h : hop.key ∈ visited) :
    expand target path visited queue (hop :: hops) = expand target path visited queue hops :=
  if_pos (List.contains_iff_mem.2 h)

theorem expand_target (hnew : hop.key ∉ visited) (h : hop.key = target) :
    expand target path visited queue (hop :: hops) = .found (path ++ [hop]) :=
  (if_neg fun hmem => hnew (List.contains_iff_mem.1 hmem)).trans (if_pos (beq_iff_eq.2 h))

theorem expand_new (hnew : hop.key ∉ visited) (h : hop.key ≠ target) :
    expand target path visited queue (hop :: hops) =
      expand target path (hop.key :: visited) (queue ++ [(hop.toTable, path ++ [hop])]) hops :=
  (if_neg fun hmem => hnew (List.contains_iff_mem.1 hmem)).trans
    (if_neg fun heq => h (beq_iff_eq.1 heq))

end expand

theorem expand_pending (h : expand target path visited queue hops = .pending visited' queue') :
    ∃ more, queue' = queue ++ more ∧ Brings target path visited hops visited' more := by
  induction hops generalizing visited queue with
  | nil =>
      obtain ⟨rfl, rfl⟩ := Expansion.pending.inj h
      exact ⟨[], (List.append_nil _).symm, .nil _⟩
  | cons hop hops ih =>
      by_cases hknown : hop.key ∈ visited
      · rw [expand_known hknown] at h
        obtain ⟨more, hqueue, hbrings⟩ := ih h
        exact ⟨more, hqueue, .known hknown hbrings⟩
      · by_cases htarget : hop.key = target
        · rw [expand_target hknown htarget] at h
          cases h
        · rw [expand_new hknown htarget] at h
          obtain ⟨more, hqueue, hbrings⟩ := ih h
          rw [List.append_assoc, List.singleton_append] at hqueue
          exact ⟨_, hqueue, .new hknown htarget hbrings⟩

/-- What is found is longer by one step than the way to the table that is left. -/
theorem expand_found {found : List Hop} (h : expand target path visited queue hops = .found found) :
    found.length = path.length + 1 := by
  induction hops generalizing visited queue with
  | nil => cases h
  | cons hop hops ih =>
      by_cases hknown : hop.key ∈ visited
      · rw [expand_known hknown] at h
        exact ih h
      · by_cases htarget : hop.key = target
        · rw [expand_target hknown htarget] at h
          rw [← Expansion.found.inj h, List.length_append, List.length_singleton]
        · rw [expand_new hknown htarget] at h
          exact ih h

/-- The first step to the target ends the search. -/
theorem expand_eq_found {hop : Hop} (htarget : target ∉ visited)
    (h : hops.find? (fun hop => hop.key == target) = some hop) :
    expand target path visited queue hops = .found (path ++ [hop]) := by
  induction hops generalizing visited queue with
  | nil => cases h
  | cons first hops ih =>
      -- until then the target is not visited, so a step to it is never passed over
      rw [List.find?_cons] at h
      by_cases hfirst : first.key = target
      · rw [beq_iff_eq.2 hfirst] at h
        obtain rfl := Option.some.inj h
        exact expand_target (hfirst ▸ htarget) hfirst
      · rw [beq_eq_false_iff_ne.2 hfirst] at h
        by_cases hknown : first.key ∈ visited
        · rw [expand_known hknown]
          exact ih htarget h
        · rw [expand_new hknown hfirst]
          exact ih (List.not_mem_cons_of_ne_of_not_mem (Ne.symm hfirst) htarget) h

namespace Brings

theorem subset (h : Brings target path visited hops visited' more) : visited ⊆ visited' := by
  induction h with
  | nil => exact List.Subset.refl _
  | known _ _ ih => exact ih
  | new _ _ _ ih => exact List.Subset.trans (List.subset_cons_self _ _) ih

/-- Whatever a step goes to counts as visited. -/
theorem key_mem (h : Brings target path visited hops visited' more) :
    ∀ hop ∈ hops, hop.key ∈ visited' := by
  induction h with
  | nil => exact fun _ hmem => absurd hmem List.not_mem_nil
  | known hknown h ih => exact List.forall_mem_cons.2 ⟨h.subset hknown, ih⟩
  | new _ _ h ih => exact List.forall_mem_cons.2 ⟨h.subset List.mem_cons_self, ih⟩

/-- A table that counts as visited now did so before, or came into the queue. -/
theorem mem_or_of_mem (h : Brings target path visited hops visited' more) :
    ∀ name ∈ visited', name ∈ visited ∨ ∃ e ∈ more, Name.normalize e.1 = name := by
  induction h with
  | nil => exact fun _ => .inl
  | known _ _ ih => exact ih
  | new _ _ _ ih =>
      intro name hname
      rcases ih name hname with hmem | ⟨e, he, hkey⟩
      · rcases List.mem_cons.1 hmem with rfl | hmem
        · exact .inr ⟨_, List.mem_cons_self, rfl⟩
        · exact .inl hmem
      · exact .inr ⟨e, List.mem_cons_of_mem _ he, hkey⟩

/-- The tables that come into the queue were not met before, and the way to them is one step
longer. -/
theorem new_entry (h : Brings target path visited hops visited' more) :
    ∀ e ∈ more, Name.normalize e.1 ∉ visited ∧ e.2.length = path.length + 1 := by
  induction h with
  | nil => exact fun _ hmem => absurd hmem List.not_mem_nil
  | known _ _ ih => exact ih
  | new hnew _ _ ih =>
      refine List.forall_mem_cons.2 ⟨⟨hnew, List.length_append⟩, fun e he => ?_⟩
      obtain ⟨hmem, hlength⟩ := ih e he
      exact ⟨List.not_mem_of_not_mem_cons hmem, hlength⟩

theorem target_not_mem (h : Brings target path visited hops visited' more)
    (htarget : target ∉ visited) : target ∉ visited' := by
  induction h with
  | nil => exact htarget
  | known _ _ ih => exact ih htarget
  | new _ hne _ ih => exact ih (List.not_mem_cons_of_ne_of_not_mem hne.symm htarget)

end Brings

/-! ### The number of rounds -/

/-- The names of the tables at the ends of the relationships. -/
def endNames (s : Schema) : List String :=
  s.relationships.flatMap fun r =>
    [Name.normalize r.source.table, Name.normalize r.target.table]

/-- The ends of relationships that were not visited. -/
def unmet (s : Schema) (visited : List String) : List String :=
  s.endNames.filter fun name => !visited.contains name

theorem length_endNames (s : Schema) : s.endNames.length = 2 * s.relationships.length := by
  rw [endNames, List.length_flatMap]
  simp [Nat.mul_comm]

theorem length_unmet_le (s : Schema) (visited : List String) :
    (s.unmet visited).length ≤ 2 * s.relationships.length :=
  Nat.le_trans (List.length_filter_le _ _) (Nat.le_of_eq s.length_endNames)

theorem IsHop.key_mem_endNames {hop : Hop} (h : s.IsHop hop) : hop.key ∈ s.endNames := by
  obtain ⟨r, hr, hends⟩ := h.links
  refine List.mem_flatMap.2 ⟨r, hr, ?_⟩
  rcases hends with ⟨-, hkey⟩ | ⟨-, hkey⟩ <;> simp [hkey]

theorem unmet_cons (s : Schema) (name : String) (visited : List String) :
    s.unmet (name :: visited) = (s.unmet visited).filter fun other => !other == name := by
  rw [unmet, unmet, List.filter_filter]
  refine List.filter_congr fun other _ => ?_
  rw [List.contains_cons, Bool.not_or]

theorem length_unmet_cons_lt {name : String} (hend : name ∈ s.endNames) (hnew : name ∉ visited) :
    (s.unmet (name :: visited)).length < (s.unmet visited).length := by
  rw [unmet_cons, List.length_filter_lt_length_iff_exists]
  refine ⟨name, List.mem_filter.2 ⟨hend, ?_⟩, ?_⟩
  · simpa using hnew
  · simp

/-- As many ends of relationships as come into the queue are not unmet any more. -/
theorem Brings.length_le (h : Brings target path visited hops visited' more)
    (hhops : ∀ hop ∈ hops, s.IsHop hop) :
    more.length + (s.unmet visited').length ≤ (s.unmet visited).length := by
  induction h with
  | nil => simp
  | known _ _ ih => exact ih (List.forall_mem_cons.1 hhops).2
  | new hnew _ _ ih =>
      obtain ⟨hhop, hrest⟩ := List.forall_mem_cons.1 hhops
      have hlater := ih hrest
      have hless := length_unmet_cons_lt hhop.key_mem_endNames hnew
      rw [List.length_cons]
      omega

/-! ### What the search keeps -/

/-- The search is about to leave the first table of the queue. -/
structure Searching (s : Schema) (start : List String) (target : String) (visited : List String)
    (queue : List (String × List Hop)) : Prop where
  start_subset : start ⊆ visited
  target_not_mem : target ∉ visited
  /-- What a table is linked to has been visited by the time that the table is left. -/
  closed : ∀ a ∈ visited,
    (∃ e ∈ queue, Name.normalize e.1 = a) ∨ ∀ b, s.Links a b → b ∈ visited
  shortest : ∀ e ∈ queue, ∀ n, s.Chain start n (Name.normalize e.1) → e.2.length ≤ n
  levels : queue.Pairwise fun e f => e.2.length ≤ f.2.length ∧ f.2.length ≤ e.2.length + 1

namespace Searching

variable {table : String}

/-- A chain that is no longer than any path in the queue leads to a visited table. -/
theorem mem_of_chain (h : s.Searching start target visited queue) {n : Nat} {name : String}
    (hchain : s.Chain start n name) (hfar : ∀ e ∈ queue, n ≤ e.2.length) : name ∈ visited := by
  induction hchain with
  | start hname => exact h.start_subset hname
  | @step n a b hchain hlink ih =>
      have ha : a ∈ visited := ih fun e he => Nat.le_of_succ_le (hfar e he)
      rcases h.closed a ha with ⟨e, he, hkey⟩ | hlinked
      · -- a table in the queue is too far away to be the last but one of the chain
        have hlength : e.2.length ≤ n := h.shortest e he n (hkey ▸ hchain)
        have hlonger : n + 1 ≤ e.2.length := hfar e he
        omega
      · exact hlinked b hlink

/-- A chain to a table that is still to be met is longer than the first path of the queue. -/
theorem lt_of_chain (h : s.Searching start target visited ((table, path) :: queue)) {n : Nat}
    {name : String} (hchain : s.Chain start n name) (hnew : name ∉ visited) : path.length < n := by
  by_contra hle
  refine hnew (h.mem_of_chain hchain (List.forall_mem_cons.2 ⟨Nat.le_of_not_lt hle, ?_⟩))
  intro e he
  have hlevel := (List.pairwise_cons.1 h.levels).1 e he
  exact Nat.le_trans (Nat.le_of_not_lt hle) hlevel.1

/-- Leaving a table that is not linked to the target. -/
theorem step (h : s.Searching start target visited ((table, path) :: queue))
    (hbrings : Brings target path visited (s.hopsFrom table) visited' more) :
    s.Searching start target visited' (queue ++ more) where
  start_subset := List.Subset.trans h.start_subset hbrings.subset
  target_not_mem := hbrings.target_not_mem h.target_not_mem
  closed a ha := by
    rcases hbrings.mem_or_of_mem a ha with hold | ⟨e, he, hkey⟩
    · rcases h.closed a hold with ⟨e, he, rfl⟩ | hlinked
      · rcases List.mem_cons.1 he with rfl | he
        · -- the table that is left
          refine .inr fun b hlink => ?_
          obtain ⟨hop, hhop, rfl⟩ := links_iff_mem_hopsFrom.1 hlink
          exact hbrings.key_mem hop hhop
        · exact .inl ⟨e, List.mem_append_left _ he, rfl⟩
      · exact .inr fun b hlink => hbrings.subset (hlinked b hlink)
    · exact .inl ⟨e, List.mem_append_right _ he, hkey⟩
  shortest e he n hchain := by
    rcases List.mem_append.1 he with he | he
    · exact h.shortest e (List.mem_cons_of_mem _ he) n hchain
    · obtain ⟨hnew, hlength⟩ := hbrings.new_entry e he
      rw [hlength]
      exact h.lt_of_chain hchain hnew
  levels := by
    -- the lengths in the queue are that of the first path and the next one, and what comes in has
    -- the longer of the two
    obtain ⟨hfirst, hlevels⟩ := List.pairwise_cons.1 h.levels
    have hlength : ∀ e ∈ more, e.2.length = path.length + 1 := fun e he =>
      (hbrings.new_entry e he).2
    refine List.pairwise_append.2 ⟨hlevels, ?_, fun e he f hf => ?_⟩
    · refine List.pairwise_of_forall_mem_list fun e he f hf => ?_
      rw [hlength e he, hlength f hf]
      exact ⟨Nat.le_refl _, Nat.le_succ _⟩
    · have hlevel : path.length ≤ e.2.length ∧ e.2.length ≤ path.length + 1 := hfirst e he
      have hmore := hlength f hf
      omega

end Searching

theorem searching_start {reachable : List String}
    (htarget : target ∉ reachable.map Name.normalize) :
    s.Searching (reachable.map Name.normalize) target (reachable.map Name.normalize)
      (reachable.map fun name => (s.tableName name, [])) where
  start_subset := List.Subset.refl _
  target_not_mem := htarget
  closed a ha := by
    obtain ⟨name, hname, rfl⟩ := List.mem_map.1 ha
    exact .inl ⟨_, List.mem_map_of_mem hname, s.normalize_tableName name⟩
  shortest e he n _ := by
    obtain ⟨name, -, rfl⟩ := List.mem_map.1 he
    exact Nat.zero_le n
  levels := by
    refine List.pairwise_map.2 (List.pairwise_of_forall fun _ _ => ?_)
    exact ⟨Nat.le_refl 0, Nat.zero_le 1⟩

/-- Where a chain leads to the target, the search finds a path that is no longer, by induction on
the number of rounds. -/
theorem exists_search_of_chain {rounds n : Nat} (h : s.Searching start target visited queue)
    (hrounds : queue.length + (s.unmet visited).length < rounds) (hchain : s.Chain start n target) :
    ∃ found, s.search target rounds visited queue = some found ∧ found.length ≤ n := by
  induction rounds generalizing visited queue with
  | zero => exact absurd hrounds (Nat.not_lt_zero _)
  | succ rounds ih =>
      cases queue with
      | nil =>
          -- all that a chain leads to has been visited
          have hvisited := h.mem_of_chain hchain fun _ hmem => absurd hmem List.not_mem_nil
          exact absurd hvisited h.target_not_mem
      | cons e queue =>
          obtain ⟨table, path⟩ := e
          rw [search]
          cases hexpand : expand target path visited queue (s.hopsFrom table) with
          | found found =>
              refine ⟨found, rfl, ?_⟩
              rw [expand_found hexpand]
              exact h.lt_of_chain hchain h.target_not_mem
          | pending visited' queue' =>
              obtain ⟨more, rfl, hbrings⟩ := expand_pending hexpand
              -- the table that is left makes the difference: what comes in was unmet
              have hless := hbrings.length_le fun hop hhop => (hopsFrom_spec hhop).1
              refine ih (h.step hbrings) ?_
              rw [List.length_cons] at hrounds
              rw [List.length_append]
              omega

/-! ### Join paths -/

/-- Where a chain leads to the target, a join path is found that is no longer. -/
theorem exists_joinPath?_of_chain {reachable : List String} {n : Nat}
    (hchain : s.Chain (reachable.map Name.normalize) n (Name.normalize target)) :
    ∃ path, s.joinPath? reachable target = some path ∧ path.length ≤ n := by
  unfold joinPath?
  dsimp only
  split
  · exact ⟨[], rfl, Nat.zero_le n⟩
  · next hthere =>
      refine exists_search_of_chain
        (searching_start fun hmem => hthere (List.contains_iff_mem.2 hmem)) ?_ hchain
      have hunmet := s.length_unmet_le (reachable.map Name.normalize)
      rw [List.length_map]
      omega

/-- A path from one of the names at the start to the target, with as few steps as possible. -/
structure IsShortest (s : Schema) (start : List String) (target : String) (path : List Hop) :
    Prop where
  isHop : ∀ hop ∈ path, s.IsHop hop
  trail : TrailsTo start target path
  nodup : (path.map Hop.key).Nodup
  new : ∀ hop ∈ path, hop.key ∉ start
  le_of_chain : ∀ n, s.Chain start n target → path.length ≤ n

theorem isShortest_joinPath? {reachable : List String}
    (h : s.joinPath? reachable target = some path) :
    s.IsShortest (reachable.map Name.normalize) (Name.normalize target) path where
  isHop := (leads_joinPath? h).1.isHop
  trail := trail_joinPath? h
  nodup := (leads_joinPath? h).1.keys_new.1
  new := (leads_joinPath? h).1.keys_new.2
  le_of_chain n hchain := by
    obtain ⟨found, hfound, hle⟩ := exists_joinPath?_of_chain hchain
    obtain rfl : path = found := Option.some.inj (h.symm.trans hfound)
    exact hle

/-- As many relationships as a shortest path has steps lead to its end. -/
theorem IsShortest.chain (h : s.IsShortest start target path) :
    s.Chain start path.length target := by
  obtain ⟨first, hfirst, htrail⟩ := h.trail
  have hchain := (Chain.start hfirst).trail h.isHop htrail
  rwa [Nat.zero_add] at hchain

/-! ### Tables that are joined directly -/

theorem hopsFrom_tableName (s : Schema) (a : String) :
    s.hopsFrom (s.tableName a) = s.hopsFrom a := by
  have hname (b : String) : sameName b (s.tableName a) = sameName b a := by
    rw [sameName, sameName, normalize_tableName]
  refine List.filterMap_congr fun r _ => ?_
  rw [hopFrom?, hopFrom?, hname, hname]

/-- What a relationship says about the columns is what the step along it says. -/
theorem joinColumns?_eq_filter (s : Schema) (a b : String) (r : Relationship) :
    (if sameName r.source.table a && sameName r.target.table b then
        some (r.source.column, r.target.column)
      else if sameName r.target.table a && sameName r.source.table b then
        some (r.target.column, r.source.column)
      else none) =
      ((s.hopFrom? a r).filter fun hop => hop.key == Name.normalize b).map
        fun hop => (hop.fromColumn, hop.toColumn) := by
  have hkey (name : String) :
      (Name.normalize (s.tableName name) == Name.normalize b) = sameName name b := by
    rw [normalize_tableName, sameName]
  by_cases hsource : sameName r.source.table a = true
  · rw [hopFrom?_of_source hsource, Option.filter_some, Hop.key, hkey, hsource, Bool.true_and]
    by_cases htarget : sameName r.target.table b = true
    · rw [htarget]
      rfl
    · -- a relationship of `a` with itself does not join it to another table
      have hnone : ¬ (sameName r.target.table a && sameName r.source.table b) = true := by
        intro h
        obtain ⟨hta, hsb⟩ := Bool.and_eq_true_iff.1 h
        rw [sameName_iff] at hta hsb hsource htarget
        exact htarget (hta.trans (hsource.symm.trans hsb))
      rw [if_neg htarget, if_neg hnone, if_neg htarget]
      rfl
  · rw [Bool.eq_false_iff.2 hsource, Bool.false_and, if_neg Bool.false_ne_true]
    by_cases htarget : sameName r.target.table a = true
    · rw [hopFrom?_of_target hsource htarget, Option.filter_some, Hop.key, hkey, htarget,
        Bool.true_and]
      cases sameName r.source.table b <;> rfl
    · rw [hopFrom?_of_neither hsource htarget, Bool.eq_false_iff.2 htarget,
        Bool.false_and]
      rfl

/-- The columns on which two tables are joined are those of the first step from the one to the
other. -/
theorem joinColumns?_eq_find? (s : Schema) (a b : String) :
    s.joinColumns? a b = ((s.hopsFrom a).find? fun hop => hop.key == Name.normalize b).map
      fun hop => (hop.fromColumn, hop.toColumn) := by
  rw [joinColumns?, hopsFrom]
  induction s.relationships with
  | nil => rfl
  | cons r rs ih =>
      rw [List.findSome?_cons, joinColumns?_eq_filter s, ih]
      cases hhop : s.hopFrom? a r with
      | none => rw [List.filterMap_cons_none hhop]; rfl
      | some hop =>
          rw [List.filterMap_cons_some hhop, List.find?_cons, Option.filter_some]
          cases hop.key == Name.normalize b <;> rfl

/-- Another table that is linked to the only one that is there is joined in one step, on the columns
of the first relationship between them. -/
theorem joinPath?_of_links {a b : String} (hne : Name.normalize a ≠ Name.normalize b)
    (h : s.Links (Name.normalize a) (Name.normalize b)) :
    ∃ hop, s.joinPath? [a] b = some [hop] ∧
      s.joinColumns? a b = some (hop.fromColumn, hop.toColumn) := by
  obtain ⟨hop', hmem, hkey⟩ := links_iff_mem_hopsFrom.1 h
  have hfound : ((s.hopsFrom a).find? fun hop => hop.key == Name.normalize b).isSome = true :=
    List.find?_isSome.2 ⟨hop', hmem, beq_iff_eq.2 hkey⟩
  obtain ⟨hop, hhop⟩ := Option.isSome_iff_exists.1 hfound
  have hthere : Name.normalize b ∉ [Name.normalize a] :=
    List.not_mem_cons_of_ne_of_not_mem hne.symm List.not_mem_nil
  refine ⟨hop, ?_, ?_⟩
  · -- the first round meets the target
    have hexpand : expand (Name.normalize b) [] [Name.normalize a] [] (s.hopsFrom (s.tableName a)) =
        .found ([] ++ [hop]) := by
      rw [hopsFrom_tableName]
      exact expand_eq_found hthere hhop
    rw [joinPath?]
    refine (if_neg fun h => hthere (List.contains_iff_mem.1 h)).trans ?_
    rw [List.map_singleton, List.map_singleton, search, hexpand]
    rfl
  · rw [joinColumns?_eq_find?, hhop]
    rfl

/-- The search for a join path.  It takes no steps just where the target is among the reachable
tables, and finds nothing just where no chain of relationships leads there from one of them.  What
it finds starts at one of them, goes on along relationships, brings in a new table with each step,
ends at the target, and is no longer than any chain.  A table that is linked to the only reachable
one comes in on the columns on which the two are joined directly. -/
theorem joinPath_shortest (s : Schema) (reachable : List String) (target : String) :
    (s.joinPath? reachable target = some [] ↔
        Name.normalize target ∈ reachable.map Name.normalize) ∧
      (s.joinPath? reachable target = none ↔
        ∀ n, ¬ s.Chain (reachable.map Name.normalize) n (Name.normalize target)) ∧
      (∀ path, s.joinPath? reachable target = some path →
        s.IsShortest (reachable.map Name.normalize) (Name.normalize target) path) ∧
      ∀ a, Name.normalize a ≠ Name.normalize target →
        s.Links (Name.normalize a) (Name.normalize target) →
        ∃ hop, s.joinPath? [a] target = some [hop] ∧
          s.joinColumns? a target = some (hop.fromColumn, hop.toColumn) := by
  refine ⟨⟨fun h => ?_, fun h => ?_⟩, ⟨fun h n hchain => ?_, fun h => ?_⟩,
    fun path => isShortest_joinPath?, fun a => joinPath?_of_links⟩
  · -- a path without steps ends where it starts
    cases (isShortest_joinPath? h).chain with
    | start hmem => exact hmem
  · obtain ⟨path, hpath, hlength⟩ := exists_joinPath?_of_chain (.start h)
    rwa [List.eq_nil_of_length_eq_zero (Nat.le_zero.1 hlength)] at hpath
  · obtain ⟨path, hpath, -⟩ := exists_joinPath?_of_chain hchain
    rw [h] at hpath
    cases hpath
  · cases hpath : s.joinPath? reachable target with
    | none => rfl
    | some path => exact absurd (isShortest_joinPath? hpath).chain (h path.length)

/-- Relationships are taken from either end, and the first of two between the same tables counts. -/
example :
    let refers (table column target : String) : Relationship :=
      ⟨⟨table, column⟩, ⟨target, "id"⟩, .manyToOne⟩
    let s : Schema :=
      { relationships := [refers "staff" "chief_id" "staff", refers "items" "order_id" "orders",
          refers "orders" "customer_id" "customers", refers "ORDERS" "payer_id" "customers"] }
    s.joinPath? ["staff", "\"Customers\""] "ITEMS" =
      some [⟨"customers", "id", "orders", "customer_id"⟩, ⟨"orders", "id", "items", "order_id"⟩] := by
  decide +kernel

end Schema

end AskSql
