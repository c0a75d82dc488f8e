import AskSql.Proofs.Compose.Assembly
import AskSql.Proofs.Query.Rows
import AskSql.Proofs.Schema.Outline
import AskSql.Proofs.Schema.Trail

/-!
# Outer joins that are asked for

A query keeps all rows of the table that it starts from, on every database, if and only if all of
its joins are left joins (`Query.keepsSource_iff`).  A question may ask for a left join of two
tables.  The second one is joined by a path, which may lead over other tables, and only the join
that brings in the second table itself becomes a left join; those on the way to it stay inner joins.
So the rows of the first table are kept if the two tables are next to each other, and are lost for
want of a match in a table on the way otherwise (`Components.leftJoin_keepsSource_iff`).

The joins of the query come in the order of the path: a join path is a trail, and such a trail can
only be walked from its start (`JoinTree.orient?_of_trail`).
-/

namespace AskSql

/-! ### Rows that joins keep -/

section Rows

variable {ν : Type} [DecidableEq ν] {db : Contents ν} {I : Meaning ν} {js : List Join}

/-- A left join makes at least one combination of each. -/
theorem Join.exists_mem_extend (db : Contents ν) (I : Meaning ν) {j : Join}
    (hleft : j.kind = .left) (x : Combination ν) : ∃ y, y ∈ j.extend db I x := by
  unfold extend
  rw [hleft]
  dsimp only
  split
  · exact ⟨_, Multiset.mem_singleton_self _⟩
  · next hfound =>
      refine Multiset.exists_mem_of_ne_zero fun hnone => hfound ?_
      rw [hnone, Multiset.card_zero]

/-- Left joins keep every combination, and change the tables that they bring in alone. -/
theorem Join.exists_mem_foldl_extend (hleft : ∀ j ∈ js, j.kind = .left)
    {xs : Multiset (Combination ν)} {x : Combination ν} (hx : x ∈ xs) :
    ∃ y ∈ js.foldl (fun xs j => xs.bind (j.extend db I)) xs,
      ∀ t ∉ js.map (fun j => j.right.tableKey), y t = x t := by
  induction js generalizing xs x with
  | nil => exact ⟨x, hx, fun _ _ => rfl⟩
  | cons j js ih =>
      obtain ⟨hj, hrest⟩ := List.forall_mem_cons.1 hleft
      obtain ⟨y, hy⟩ := Join.exists_mem_extend db I hj x
      obtain ⟨row, rfl⟩ := j.exists_bring_of_mem_extend db I hy
      obtain ⟨z, hz, hsame⟩ := ih hrest (Multiset.mem_bind.2 ⟨x, hx, hy⟩)
      refine ⟨z, hz, fun t ht => ?_⟩
      rw [List.map_cons, List.mem_cons, not_or] at ht
      rw [hsame t ht.2, x.bring_of_ne row ht.1]

/-- An inner join with an empty table leaves nothing. -/
theorem Join.foldl_extend_eq_zero {j : Join} (hj : j ∈ js) (hinner : j.kind = .inner)
    (hempty : db j.right.tableKey = 0) (xs : Multiset (Combination ν)) :
    js.foldl (fun xs j => xs.bind (j.extend db I)) xs = 0 := by
  -- once no combination is left, none comes back
  have hzero (js : List Join) :
      js.foldl (fun xs j => xs.bind (j.extend db I)) (0 : Multiset (Combination ν)) = 0 := by
    induction js with
    | nil => rfl
    | cons j js ih => rwa [List.foldl_cons, Multiset.zero_bind]
  have hnone (x : Combination ν) : j.extend db I x = 0 := by
    rw [extend, hinner, hempty]
    rfl
  induction js generalizing xs with
  | nil => cases hj
  | cons k js ih =>
      rw [List.foldl_cons]
      rcases List.mem_cons.1 hj with rfl | hj
      · have hbind : xs.bind (j.extend db I) = 0 := by
          rw [funext hnone]
          exact Multiset.bind_zero xs
        rw [hbind, hzero]
      · exact ih hj _

end Rows

namespace Query

/-- No join of a well scoped query brings in the table that it starts from. -/
theorem WellScoped.right_ne_source {q : Query} (h : q.WellScoped) :
    ∀ j ∈ q.joins, j.right.tableKey ≠ Text.lower q.source := by
  intro j hj heq
  obtain ⟨i, hi⟩ := List.mem_iff_getElem?.1 hj
  exact h.right_new i j hi (heq ▸ List.mem_cons_self)

/-- On every database each row of the first table is in some combination after the joins. -/
def KeepsSource (q : Query) : Prop :=
  ∀ (ν : Type) [DecidableEq ν] (db : Contents ν) (I : Meaning ν),
    ∀ row ∈ db (Text.lower q.source),
      ∃ x ∈ q.joinedRows db I, x (Text.lower q.source) = some row

theorem keepsSource_iff {q : Query}
    (hnew : ∀ j ∈ q.joins, j.right.tableKey ≠ Text.lower q.source) :
    q.KeepsSource ↔ ∀ j ∈ q.joins, j.kind = .left := by
  constructor
  · intro hkeeps j hj
    cases hkind : j.kind with
    | left => rfl
    | inner =>
        -- all tables but the first one are empty
        let row : Row Unit := fun _ => none
        let db : Contents Unit := fun t => if t = Text.lower q.source then {row} else 0
        let I : Meaning Unit := ⟨fun _ _ => true, fun _ _ _ _ => rfl⟩
        have hrow : row ∈ db (Text.lower q.source) := by
          show row ∈ ite _ _ _
          rw [if_pos rfl]
          exact Multiset.mem_singleton_self row
        have hempty : db j.right.tableKey = 0 := if_neg (hnew j hj)
        obtain ⟨x, hx, -⟩ := hkeeps Unit db I row hrow
        rw [joinedRows, Join.foldl_extend_eq_zero hj hkind hempty] at hx
        exact absurd hx (Multiset.notMem_zero x)
  · intro hleft ν _ db I row hrow
    have hfirst : Combination.empty.bring (Text.lower q.source) row ∈
        db.bringAll {.empty} [Text.lower q.source] := by
      rw [Contents.bringAll, List.foldl_cons, List.foldl_nil, Multiset.singleton_bind]
      exact Multiset.mem_map_of_mem _ hrow
    obtain ⟨x, hx, hsame⟩ := Join.exists_mem_foldl_extend (I := I) hleft hfirst
    refine ⟨x, hx, ?_⟩
    rw [hsame]
    · exact Function.update_self _ _ _
    · intro hmem
      obtain ⟨j, hj, heq⟩ := List.mem_map.1 hmem
      exact hnew j hj heq

end Query

/-! ### Joins in the order of a path -/

/-- Where only the first member is accepted, it is the one that is picked. -/
theorem pick?_cons_of_refused {α : Type} {accepts : α → Bool} {x y : α} {xs ys : List α}
    (h : pick? accepts (x :: xs) = some (y, ys)) (hrefused : ∀ z ∈ xs, accepts z = false) :
    y = x ∧ ys = xs := by
  rw [pick?] at h
  split at h
  · obtain ⟨rfl, rfl⟩ := Prod.mk.inj (Option.some.inj h)
    exact ⟨rfl, rfl⟩
  · obtain ⟨⟨z, zs⟩, hz, -⟩ := Option.map_eq_some_iff.1 h
    have hmem : z ∈ xs := (perm_of_pick? hz).mem_iff.1 List.mem_cons_self
    exact absurd (accepts_of_pick? hz) (Bool.eq_false_iff.1 (hrefused z hmem))

/-- The names of the two tables of a join, in normal form. -/
def Join.ends (j : Join) : String × String :=
  (Name.normalize j.left.table, Name.normalize j.right.table)

namespace JoinTree

theorem map_ends_toJoin (path : List Hop) :
    (path.map Hop.toJoin).map Join.ends = path.map Hop.ends := by
  rw [List.map_map]
  rfl

/-- Joins that form a trail from a table that is there to tables that are not are taken in their
order, and none is turned round. -/
theorem orient?_of_trail {first last : String} {there scope : List String}
    {pending joins : List Join} (h : orient? scope pending = some joins)
    (htrail : Trail first (pending.map Join.ends) last)
    (hscope : ∀ r : Reference, r.tableKey ∈ scope → Name.normalize r.table ∈ there)
    (hnodup : (there ++ (pending.map Join.ends).map Prod.snd).Nodup) : joins = pending := by
  fun_induction orient? scope pending generalizing joins there first with
  | case1 scope pending hnil =>
      rw [← Option.some.inj h, List.isEmpty_iff.1 hnil]
  | case2 => cases h
  | case3 scope pending hsome j rest hpick next =>
      rename_i ih
      obtain ⟨js, hjs, rfl⟩ := Option.map_eq_some_iff.1 h
      cases pending with
      | nil => exact absurd rfl hsome
      | cons k pending =>
          have haway := List.disjoint_of_nodup_append hnodup
          obtain ⟨-, htrail⟩ := htrail.cons_inv
          -- a later join starts where an earlier one ends, which is not in scope yet
          have hrefused : ∀ i ∈ pending, touches scope i = false := by
            intro i hi
            have hends : i.ends ∈ pending.map Join.ends := List.mem_map_of_mem hi
            rw [Bool.eq_false_iff, ne_eq, touches_iff]
            rintro (hleft | hright)
            · have hthere : i.ends.1 ∈ there := hscope i.left hleft
              exact haway hthere (List.mem_cons.2 (htrail.fst_mem i.ends hends))
            · have hthere : i.ends.2 ∈ there := hscope i.right hright
              exact haway hthere (List.mem_cons_of_mem _ (List.mem_map_of_mem hends))
          obtain ⟨rfl, rfl⟩ := pick?_cons_of_refused hpick hrefused
          have hnext : next = j := by
            rcases touches_iff.1 (accepts_of_pick? hpick) with hleft | hright
            · exact if_pos (List.contains_iff_mem.2 hleft)
            · have hthere : j.ends.2 ∈ there := hscope j.right hright
              exact absurd List.mem_cons_self (haway hthere)
          rw [hnext] at hjs ih ⊢
          congr 1
          have hscope' : ∀ r : Reference, r.tableKey ∈ j.right.tableKey :: scope →
              Name.normalize r.table ∈ there ++ [j.ends.2] := by
            intro r hr
            rcases List.mem_cons.1 hr with heq | hr
            · have hname : Name.normalize r.table = j.ends.2 := Name.normalize_eq_of_lower_eq heq
              rw [hname]
              exact List.mem_append_right _ List.mem_cons_self
            · exact List.mem_append_left _ (hscope r hr)
          refine ih hjs htrail hscope' ?_
          rw [List.append_assoc]
          exact hnodup

/-- The joins of a path to a table, once the join with this table is to keep the rows that have no
match. -/
structure MarkedLast (right : String) (joins : List Join) : Prop where
  inner_before : ∀ j ∈ joins.dropLast, j.kind = .inner
  left_last : ∀ j ∈ joins.getLast?, (j.kind = .left ↔ Text.sameFold j.table right = true)

theorem markedLast_nil (right : String) : MarkedLast right [] :=
  ⟨nofun, nofun⟩

/-- All of the joins are left joins if and only if there are no other ones than the marked one. -/
theorem MarkedLast.forall_left_iff {right : String} {joins : List Join}
    (h : MarkedLast right joins) :
    (∀ j ∈ joins, j.kind = .left) ↔
      joins.length ≤ 1 ∧ ∀ j ∈ joins, Text.sameFold j.table right = true := by
  rcases List.eq_nil_or_concat' joins with rfl | ⟨before, last, rfl⟩
  · exact iff_of_true nofun ⟨Nat.zero_le 1, nofun⟩
  · obtain ⟨hinner, hlast⟩ := h
    rw [List.dropLast_concat] at hinner
    rw [List.getLast?_concat] at hlast
    have hlast : last.kind = .left ↔ Text.sameFold last.table right = true := hlast last rfl
    cases before with
    | nil =>
        rw [List.nil_append, List.forall_mem_singleton, List.forall_mem_singleton, hlast]
        exact (and_iff_right (Nat.le_refl 1)).symm
    | cons j before =>
        -- the first step of a longer path is an inner join
        have hfirst : j.kind = .inner := hinner j List.mem_cons_self
        refine iff_of_false (fun hall => ?_) fun hshort => ?_
        · have hleft := hall j List.mem_cons_self
          rw [hfirst] at hleft
          cases hleft
        · have hlength := hshort.1
          rw [List.length_append, List.length_cons, List.length_singleton] at hlength
          omega

/-- Only the last step of a path to a table brings this table in. -/
theorem markedLast_keepUnmatched {t : JoinTree} {first right : String} {path : List Hop}
    (hhops : t.hops = path.map Hop.toJoin)
    (htrail : Trail first (path.map Hop.ends) (Name.normalize right))
    (hnodup : ((path.map Hop.ends).map Prod.snd).Nodup) :
    MarkedLast right (t.keepUnmatched right).hops ∧
      (t.keepUnmatched right).hops.map Join.ends = path.map Hop.ends := by
  have hinner : ∀ j ∈ t.hops, j.kind = .inner := by
    rw [hhops]
    intro j hj
    obtain ⟨hop, -, rfl⟩ := List.mem_map.1 hj
    rfl
  rw [← map_ends_toJoin, ← hhops] at htrail hnodup ⊢
  rcases updateFirst_cases (fun j : Join => Text.sameFold j.table right)
      (fun j => { j with kind := .left }) t.hops with
    ⟨hrefused, heq⟩ | ⟨before, x, after, hsplit, -, hx, heq⟩
  · have hsame : (t.keepUnmatched right).hops = t.hops := by
      rw [keepUnmatched, heq]
      rfl
    rw [hsame]
    refine ⟨⟨fun j hj => hinner j (List.dropLast_subset _ hj), fun j hj => ?_⟩, rfl⟩
    have hmem : j ∈ t.hops := List.mem_of_getLast? hj
    rw [hinner j hmem, hrefused j hmem]
    decide
  · have hname : x.ends.2 = Name.normalize right :=
      Name.normalize_eq_of_lower_eq (Text.sameFold_iff.1 hx)
    -- the join that is marked reaches the target, so no other one comes behind it
    have hafter : after = [] := by
      rw [hsplit, List.map_append, List.map_cons] at htrail hnodup
      rw [← hname] at htrail
      exact List.map_eq_nil_iff.1 (htrail.eq_nil_of_reached hnodup)
    subst hafter
    have hmarked : (t.keepUnmatched right).hops = before ++ [{ x with kind := .left }] := by
      rw [keepUnmatched, heq]
      rfl
    rw [hmarked, hsplit]
    refine ⟨⟨fun j hj => ?_, fun j hj => ?_⟩, ?_⟩
    · rw [List.dropLast_concat] at hj
      refine hinner j ?_
      rw [hsplit]
      exact List.mem_append_left _ hj
    · rw [List.getLast?_concat] at hj
      obtain rfl := Option.some.inj hj
      exact iff_of_true rfl hx
    · rw [List.map_append, List.map_append]
      rfl

variable {s : Schema} {base left right : String}

/-- Joining a table that is there changes nothing. -/
theorem join_of_sameName (h : sameName left base = true) :
    (ofBase base).join s left = ofBase base := by
  have hthere : Name.normalize left ∈ [base].map Name.normalize :=
    List.mem_singleton.2 (sameName_iff.1 h)
  have hpath : s.joinPath? [base] left = some [] := by
    unfold Schema.joinPath?
    exact if_pos (List.contains_iff_mem.2 hthere)
  rw [join, join?, tables_ofBase, hpath]
  rfl

/-- The joins of a query for a left join with the base table, in the order of the path. -/
theorem markedLast_joinsFrom {joins : List Join} (hleft : sameName left base = true)
    (h : (joinPart s (ofBase base) ⟨"left", left, right⟩).joinsFrom base = .ok joins) :
    MarkedLast right joins := by
  have hpart : joinPart s (ofBase base) ⟨"left", left, right⟩ =
      ((ofBase base).join s right).keepUnmatched right := by
    rw [joinPart, join_of_sameName hleft]
    rfl
  rw [hpart, joinsFrom] at h
  split at h
  · next turned horient =>
      obtain rfl := Except.ok.inj h
      -- without a path nothing is joined; with one its hops come out in the order of the trail
      cases hpath : s.joinPath? [base] right with
      | none =>
          have halone : (ofBase base).join s right = ofBase base := by
            rw [join, join?, tables_ofBase, hpath]
            rfl
          rw [halone, orient?] at horient
          rw [← Option.some.inj horient]
          exact markedLast_nil right
      | some path =>
          have hhops : ((ofBase base).join s right).hops = path.map Hop.toJoin := by
            rw [join, join?, tables_ofBase, hpath]
            rfl
          obtain ⟨first, hfirst, htrail⟩ := Schema.trail_joinPath? hpath
          obtain ⟨hleads, -⟩ := Schema.leads_joinPath? hpath
          have hnodup : ([Name.normalize base] ++ (path.map Hop.ends).map Prod.snd).Nodup := by
            have h := hleads.nodup (List.nodup_singleton _)
            rw [List.map_map]
            exact h
          obtain ⟨hmarked, hends⟩ :=
            markedLast_keepUnmatched hhops htrail (List.Nodup.of_append_right hnodup)
          rw [← hends] at htrail hnodup
          rw [orient?_of_trail horient htrail (fun r hr => ?_) hnodup]
          · exact hmarked
          · refine List.mem_singleton.2 (Name.normalize_eq_of_lower_eq ?_)
            exact List.mem_singleton.1 hr
  · cases h

end JoinTree

namespace Components

variable {s : Schema} {default : Option String} {c : Components} {q : Query}
  {base left right : String}

/-- A query without aggregates, groups and conditions has the joins that were asked for. -/
theorem joins_of_query (h : c.query s default = .ok q) (hbase : c.baseTable s default = .ok base)
    (haggregations : c.aggregations = []) (hgroupBy : c.groupBy = [])
    (hconditions : c.conditions = []) :
    (c.joins.foldl (JoinTree.joinPart s) (.ofBase base)).joinsFrom base = .ok q.joins ∧
      q.source = base ∧ q.WellScoped := by
  rw [query_eq, hbase] at h
  have hsummed : c.summed s base =
      ([], c.joins.foldl (JoinTree.joinPart s) (.ofBase base)) := by
    rw [summed, haggregations]
    rfl
  rw [hconditions] at h
  obtain ⟨_, hbase', h⟩ := (Failure.bind_eq_ok_iff _ _ _).1 h
  obtain rfl := Except.ok.inj hbase'
  obtain ⟨⟨conditions, t⟩, hparts, h⟩ := (Failure.bind_eq_ok_iff _ _ _).1 h
  obtain ⟨joins, hjoins, h⟩ := (Failure.bind_eq_ok_iff _ _ _).1 h
  obtain ⟨hvalid, hq⟩ := (Failure.check_eq_ok_iff _ _ _).1 h
  obtain rfl := Except.ok.inj hq
  obtain ⟨-, rfl⟩ := Prod.mk.inj (Except.ok.inj hparts)
  rw [grouped, hgroupBy, hsummed] at hjoins
  exact ⟨hjoins, rfl, (Query.validate_eq_ok_iff _).1 hvalid⟩

/-- A query for one left join of the table that it starts from.  The last join alone may be a left
join, and is one if the question names its table as the schema does, up to case.  So the rows of the
first table are kept if and only if no other table lies between the two and the name is this. -/
theorem leftJoin_keepsSource_iff (h : c.query s default = .ok q)
    (hbase : c.baseTable s default = .ok base) (hjoins : c.joins = [⟨"left", left, right⟩])
    (hleft : sameName left base = true) (haggregations : c.aggregations = [])
    (hgroupBy : c.groupBy = []) (hconditions : c.conditions = []) :
    q.source = base ∧ (∀ j ∈ q.joins.dropLast, j.kind = .inner) ∧
      (∀ j ∈ q.joins.getLast?, (j.kind = .left ↔ Text.sameFold j.table right = true)) ∧
      (q.KeepsSource ↔
        q.joins.length ≤ 1 ∧ ∀ j ∈ q.joins, Text.sameFold j.table right = true) := by
  obtain ⟨hfrom, hsource, hscoped⟩ :=
    joins_of_query h hbase haggregations hgroupBy hconditions
  rw [hjoins] at hfrom
  have hmarked := JoinTree.markedLast_joinsFrom hleft hfrom
  refine ⟨hsource, hmarked.inner_before, hmarked.left_last, ?_⟩
  rw [Query.keepsSource_iff hscoped.right_ne_source, hmarked.forall_left_iff]

/-- Customers, their orders, and the items of these orders. -/
def orderItems : Schema where
  tables := [
    { name := "customers", columns := [.asPrimaryKey { name := "id", type := .integer }] },
    { name := "orders",
      columns := [.asPrimaryKey { name := "id", type := .integer },
        { name := "customer_id", type := .integer }] },
    { name := "items",
      columns := [.asPrimaryKey { name := "id", type := .integer },
        { name := "order_id", type := .integer }] }]
  relationships := [
    ⟨⟨"orders", "customer_id"⟩, ⟨"customers", "id"⟩, .manyToOne⟩,
    ⟨⟨"items", "order_id"⟩, ⟨"orders", "id"⟩, .manyToOne⟩]

/-- Customers without orders are kept where customers are joined with orders. -/
theorem leftJoin_keepsSource_orders :
    ∃ q, ({ tables := ["customers"], joins := [⟨"left", "customers", "orders"⟩] } :
        Components).query orderItems none = .ok q ∧ q.source = "customers" ∧ q.KeepsSource := by
  have hresult : (({ tables := ["customers"], joins := [⟨"left", "customers", "orders"⟩] } :
      Components).query orderItems none).map (fun q => q.joins.map Join.table) =
        .ok ["orders"] := by
    decide +kernel
  obtain ⟨q, hq, htables⟩ := (Failure.map_eq_ok_iff _ _ _).1 hresult
  have hbase : ({ tables := ["customers"], joins := [⟨"left", "customers", "orders"⟩] } :
      Components).baseTable orderItems none = .ok "customers" := by
    decide +kernel
  obtain ⟨hsource, -, -, hkeeps⟩ :=
    leftJoin_keepsSource_iff hq hbase rfl (sameName_self _) rfl rfl rfl
  refine ⟨q, hq, hsource, hkeeps.2 ⟨?_, fun j hj => ?_⟩⟩
  · rw [← List.length_map (f := Join.table), htables]
    exact Nat.le_refl 1
  · have hmem : j.table ∈ ["orders"] := htables ▸ List.mem_map_of_mem hj
    rw [List.mem_singleton.1 hmem]
    decide

/-- Customers without orders are lost where they are joined with the items of their orders. -/
theorem leftJoin_loses_customers :
    ∃ q, ({ tables := ["customers"], joins := [⟨"left", "customers", "items"⟩] } :
        Components).query orderItems none = .ok q ∧ q.source = "customers" ∧
      q.joins.map (fun j => (j.kind, j.table)) = [(.inner, "orders"), (.left, "items")] ∧
      ¬q.KeepsSource := by
  have hresult : (({ tables := ["customers"], joins := [⟨"left", "customers", "items"⟩] } :
      Components).query orderItems none).map (fun q => q.joins.map fun j => (j.kind, j.table)) =
        .ok [(.inner, "orders"), (.left, "items")] := by
    decide +kernel
  obtain ⟨q, hq, hjoins⟩ := (Failure.map_eq_ok_iff _ _ _).1 hresult
  have hbase : ({ tables := ["customers"], joins := [⟨"left", "customers", "items"⟩] } :
      Components).baseTable orderItems none = .ok "customers" := by
    decide +kernel
  obtain ⟨-, hsource, hscoped⟩ := joins_of_query hq hbase rfl rfl rfl
  refine ⟨q, hq, hsource, hjoins, fun hkeeps => ?_⟩
  -- the join with the orders is not a left join
  have hfirst : (JoinKind.inner, "orders") ∈ q.joins.map fun j => (j.kind, j.table) := by
    rw [hjoins]
    exact List.mem_cons_self
  obtain ⟨j, hj, heq⟩ := List.mem_map.1 hfirst
  have hinner : j.kind = .inner := (Prod.mk.inj heq).1
  rw [(Query.keepsSource_iff hscoped.right_ne_source).1 hkeeps j hj] at hinner
  cases hinner

end Components

end AskSql
