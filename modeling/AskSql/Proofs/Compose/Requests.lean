import AskSql.Proofs.Compose.Turning
import AskSql.Proofs.Schema.ShortestPath
import Mathlib.Data.List.Induction

/-!
# Tables that are asked for one after the other

While a query is put together one table after the other is asked for, and joined to the tree if a
join path leads to it (`JoinTree.afterRequests`).  Paths are searched for under the normal forms of
names, and a query is checked with the case of ASCII letters set aside; for bare names the two come
to the same.  Then the hops stay rooted at the base whatever is asked for, and what a request does
can be told from the relationships alone (`JoinTree.Serves`): a table is joined just if a chain of
relationships connects it with the base, a table that is there is not joined again, and a request
that leads nowhere changes nothing (`JoinTree.afterRequests_serves`).

The tree has grown by join paths (`JoinTree.Grown`), which one request keeps so (`Grown.join`) and
hence any number of them.  All its tables are connected with the base by the hops themselves, so it
makes no difference whether a chain starts from the base or from another table of the tree.
-/

namespace AskSql

namespace Schema

variable {s : Schema} {start start' : List String}

/-- A chain that goes on from where others lead. -/
theorem Chain.of_start {n : Nat} {name : String} (h : s.Chain start' n name)
    (hstart : ∀ a ∈ start', ∃ m, s.Chain start m a) : ∃ m, s.Chain start m name := by
  induction h with
  | start hname => exact hstart _ hname
  | step _ hlink ih =>
      obtain ⟨m, hchain⟩ := ih
      exact ⟨m + 1, .step hchain hlink⟩

/-- A chain leads to every table on a path. -/
theorem Leads.exists_chain {path : List Hop} (h : s.Leads start path) :
    ∀ name ∈ reached start path, ∃ n, s.Chain start n name := by
  induction h with
  | nil =>
      intro name hname
      rw [reached_nil] at hname
      exact ⟨0, .start hname⟩
  | concat _ hhop hfrom _ ih =>
      intro name hname
      rw [reached_concat] at hname
      obtain hname | hname := List.mem_append.1 hname
      · exact ih name hname
      · obtain ⟨n, hchain⟩ := ih _ hfrom
        rw [List.mem_singleton.1 hname]
        exact ⟨n + 1, .step hchain hhop.links⟩

/-- The two tables are connected by a chain of relationships, each in either direction. -/
def Connects (s : Schema) (a b : String) : Prop :=
  ∃ n, s.Chain [Name.normalize a] n (Name.normalize b)

end Schema

namespace JoinTree

variable {s : Schema} {base table : String} {t t' : JoinTree}

/-- The tree that has grown from a base table by requests for tables, one after the other. -/
def afterRequests (s : Schema) (base : String) (requests : List String) : JoinTree :=
  requests.foldl (join s) (ofBase base)

theorem join?_eq_some_iff :
    t.join? s table = some t' ↔ ∃ path, s.joinPath? t.tables table = some path ∧
      t' = { t with hops := t.hops ++ path.map Hop.toJoin } := by
  rw [join?, Option.map_eq_some_iff]
  exact exists_congr fun path => and_congr Iff.rfl eq_comm

/-! ### What requests keep -/

/-- One request. -/
theorem Grown.join (h : Grown s base t) (table : String) : Grown s base (t.join s table) := by
  rw [JoinTree.join]
  cases hjoin : t.join? s table with
  | none => exact h
  | some t' => exact (h.join? hjoin).1

theorem root_join (s : Schema) (t : JoinTree) (table : String) :
    (t.join s table).root = t.root := by
  rw [join]
  cases hjoin : t.join? s table with
  | none => rfl
  | some t' =>
      obtain ⟨path, -, rfl⟩ := join?_eq_some_iff.1 hjoin
      rfl

/-- Any number of requests, by induction on their list. -/
theorem grown_afterRequests (s : Schema) (base : String) (requests : List String) :
    Grown s base (afterRequests s base requests) ∧ (afterRequests s base requests).root = base := by
  induction requests using List.reverseRecOn with
  | nil => exact ⟨grown_ofBase s base, rfl⟩
  | append_singleton requests table ih =>
      rw [afterRequests, List.foldl_append, List.foldl_cons, List.foldl_nil, ← afterRequests,
        root_join]
      exact ⟨ih.1.join table, ih.2⟩

/-! ### Bare names -/

section Bare

variable (hbare : s.HasBareNames) (hbase : Name.IsBare base)

include hbare hbase

/-- All tables of the tree have bare names. -/
theorem Grown.bare (h : Grown s base t) {name : String} (hname : name ∈ t.tables) :
    Name.IsBare name := by
  obtain rfl | hwritten := h.written hname
  · exact hbase
  · exact hbare name hwritten

theorem Grown.map_normalize_tables (h : Grown s base t) :
    t.tables.map Name.normalize = t.tables.map Text.lower :=
  List.map_congr_left fun _ hname => (h.bare hbare hbase hname).normalize_eq

/-- A bare name is in the tree in normal form just if it is there up to the case of its letters. -/
theorem Grown.hasTable_iff (h : Grown s base t) (htable : Name.IsBare table) :
    t.hasTable table = true ↔ Name.normalize table ∈ t.tables.map Name.normalize := by
  rw [h.map_normalize_tables hbare hbase, htable.normalize_eq, JoinTree.hasTable_iff]

theorem Grown.rootedAt (h : Grown s base t) : RootedAt base t.hops := by
  obtain ⟨rfl, ⟨path, hhops, hleads⟩, -, -⟩ := h
  have hscope := joinScope_of_leads hbare hleads
  rw [← hhops, hbase.normalize_eq] at hscope
  exact (joinScope_eq_ok_iff_rootedAt.1 hscope).1

end Bare

/-! ### What one request does -/

/-- What a request for a table does to a tree, the tables of which are told apart with the case of
ASCII letters set aside. -/
structure Serves (s : Schema) (t : JoinTree) (table : String) : Prop where
  /-- The table is joined just if it is connected with the base. -/
  joined_iff : (t.join? s table).isSome = true ↔ s.Connects t.base table
  /-- Then it is there, base and root are what they were, and the hops that were made bring in
  tables that were not there. -/
  joined : ∀ t', t.join? s table = some t' → t'.hasTable table = true ∧
    ∃ more, t' = { t with hops := t.hops ++ more } ∧ ∀ j ∈ more, t.hasTable j.table = false
  /-- A table that is there is found without a hop. -/
  there : t.hasTable table = true → t.join? s table = some t
  /-- Where it cannot be joined the tree stays as it is. -/
  passed_over : t.join? s table = none → t.join s table = t

/-- Chains from all tables of a tree lead no further than those from its base. -/
theorem Grown.connects_iff (h : Grown s base t) :
    (∃ n, s.Chain (t.tables.map Name.normalize) n (Name.normalize table)) ↔
      s.Connects base table := by
  obtain ⟨rfl, ⟨path, hhops, hleads⟩, -, -⟩ := h
  rw [JoinTree.map_normalize_tables hhops]
  constructor
  · rintro ⟨n, hchain⟩
    exact hchain.of_start hleads.exists_chain
  · rintro ⟨n, hchain⟩
    refine hchain.of_start fun a ha => ⟨0, .start ?_⟩
    exact List.mem_append_left _ ha

theorem Grown.serves (h : Grown s base t) (hbare : s.HasBareNames) (hbase : Name.IsBare base)
    (htable : Name.IsBare table) : t.Serves s table where
  joined_iff := by
    rw [h.base_eq, ← h.connects_iff, JoinTree.join?, Option.isSome_map, Option.isSome_iff_exists]
    constructor
    · rintro ⟨path, hpath⟩
      exact ⟨_, (Schema.isShortest_joinPath? hpath).chain⟩
    · rintro ⟨n, hchain⟩
      obtain ⟨path, hpath, -⟩ := Schema.exists_joinPath?_of_chain hchain
      exact ⟨path, hpath⟩
  joined t' hjoin := by
    obtain ⟨hgrown, -, hthere⟩ := h.join? hjoin
    refine ⟨(hgrown.hasTable_iff hbare hbase htable).2 hthere, ?_⟩
    obtain ⟨path, hpath, rfl⟩ := join?_eq_some_iff.1 hjoin
    refine ⟨_, rfl, fun j hj => ?_⟩
    obtain ⟨hop, hhop, rfl⟩ := List.mem_map.1 hj
    obtain ⟨hleads, -⟩ := Schema.leads_joinPath? hpath
    have hbaretable := hbare _ (hleads.isHop hop hhop).to_written
    have hnew : ¬ t.hasTable hop.toTable = true := by
      rw [h.hasTable_iff hbare hbase hbaretable]
      exact hleads.keys_new.2 hop hhop
    exact Bool.eq_false_iff.2 hnew
  there hthere := by
    -- the path to a table that is there has no steps
    have hmem := (h.hasTable_iff hbare hbase htable).1 hthere
    have hpath : s.joinPath? t.tables table = some [] := by
      rw [Schema.joinPath?]
      exact if_pos (List.contains_iff_mem.2 hmem)
    refine join?_eq_some_iff.2 ⟨[], hpath, ?_⟩
    rw [List.map_nil, List.append_nil]
  passed_over hnone := by
    rw [JoinTree.join, hnone]
    rfl

/-- Whatever tables are asked for, on any schema with bare names and from any bare base: base and
root stay, the hops are rooted at the base, and the next request for a bare name is served as it
should be. -/
theorem afterRequests_serves (s : Schema) (base : String) (requests : List String)
    (hbare : s.HasBareNames) (hbase : Name.IsBare base) :
    (afterRequests s base requests).base = base ∧ (afterRequests s base requests).root = base ∧
      RootedAt base (afterRequests s base requests).hops ∧
      ∀ table, Name.IsBare table → (afterRequests s base requests).Serves s table := by
  obtain ⟨hgrown, hroot⟩ := grown_afterRequests s base requests
  exact ⟨hgrown.base_eq, hroot, hgrown.rootedAt hbare hbase,
    fun _ htable => hgrown.serves hbare hbase htable⟩

/-- Orders with their customers and lines, in several spellings, and stores that nothing refers
to. -/
def orderBook : Schema where
  tables := [{ name := "customers", columns := [] }, { name := "Orders", columns := [] },
    { name := "stores", columns := [] }]
  relationships := [⟨⟨"orders", "customer_id"⟩, ⟨"customers", "id"⟩, .manyToOne⟩,
    ⟨⟨"order_items", "order_id"⟩, ⟨"ORDERS", "id"⟩, .manyToOne⟩]

theorem hasBareNames_orderBook : orderBook.HasBareNames := by
  have htables : ∀ t ∈ orderBook.tables, Name.IsBare t.name := by decide +kernel
  have hends : ∀ r ∈ orderBook.relationships,
      Name.IsBare r.source.table ∧ Name.IsBare r.target.table := by
    decide +kernel
  rintro name (⟨t, ht, rfl⟩ | ⟨r, hr, rfl | rfl⟩)
  · exact htables t ht
  · exact (hends r hr).1
  · exact (hends r hr).2

/-- From the customers the lines bring in the orders, which are there afterwards.  The stores are
passed over. -/
theorem afterRequests_serves_orderBook :
    orderBook.HasBareNames ∧ Name.IsBare "Customers" ∧ Name.IsBare "orders" ∧
      (afterRequests orderBook "Customers" ["Order_Items", "stores"]).tables =
        ["Customers", "Orders", "order_items"] ∧
      RootedAt "Customers" (afterRequests orderBook "Customers" ["Order_Items", "stores"]).hops ∧
      (afterRequests orderBook "Customers" ["Order_Items", "stores"]).Serves orderBook "orders" := by
  have hbase : Name.IsBare "Customers" := by decide +kernel
  have htable : Name.IsBare "orders" := by decide +kernel
  obtain ⟨-, -, hrooted, hserves⟩ :=
    afterRequests_serves orderBook "Customers" ["Order_Items", "stores"] hasBareNames_orderBook hbase
  exact ⟨hasBareNames_orderBook, hbase, htable, by decide +kernel, hrooted, hserves "orders" htable⟩

end JoinTree
end AskSql
