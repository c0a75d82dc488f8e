import AskSql.Proofs.Compose.JoinTree
import Mathlib.Logic.Relation

/-!
# Joins turned round

The hops of a join tree are rooted at its base (`JoinTree.RootedAt`): each of them starts from a
table that is there by then and brings in one that is not.  A query that starts from another table
takes the hops in another order, and turns round those that lead towards it.  Whatever table of the
tree the query starts from, this comes to an end with joins that are rooted at that table, each hop
being taken once (`JoinTree.joinsFrom_turns`).

For hops of any shape, it fails exactly if some hop is not connected with the table to start from
(`JoinTree.orient?_eq_none_iff`): a property that this table has, and both ends of each hop or none,
is one that all ends have exactly if all of them are connected with it.
-/

namespace AskSql
namespace JoinTree

variable {t : JoinTree} {base root : String} {joins hops : List Join}

/-- Each join starts from a table that is there by then and brings in one that is not, with the case
of ASCII letters set aside. -/
def RootedAt (base : String) (joins : List Join) : Prop :=
  ∀ i j, joins[i]? = some j →
    j.left.tableKey ∈ Text.lower base :: rights (joins.take i) ∧
      j.right.tableKey ∉ Text.lower base :: rights (joins.take i)

theorem joinScope_eq_ok_iff_rootedAt {nodes : List String} :
    Query.joinScope [Text.lower base] (sides joins) = .ok nodes ↔
      RootedAt base joins ∧ nodes = Text.lower base :: rights joins := by
  have hrights (js : List Join) : (sides js).map (fun j => j.2.tableKey) = rights js := by
    rw [sides, List.map_map]
    rfl
  have htake (i : Nat) : (sides joins).take i = sides (joins.take i) := by
    rw [sides, sides, List.map_take]
  simp only [Query.joinScope_eq_ok_iff, htake, hrights, List.singleton_append]
  refine and_congr ⟨fun h i j hj => ?_, fun h i p hp => ?_⟩ Iff.rfl
  · exact h i (j.left, j.right) (by rw [sides, List.getElem?_map, hj]; rfl)
  · rw [sides, List.getElem?_map] at hp
    obtain ⟨j, hj, rfl⟩ := Option.map_eq_some_iff.1 hp
    exact h i j hj

theorem hasTable_iff {table : String} :
    t.hasTable table = true ↔ Text.lower table ∈ t.tables.map Text.lower := by
  simp only [hasTable, List.any_eq_true, List.mem_map, Text.sameFold_iff]

theorem map_lower_tables (t : JoinTree) :
    t.tables.map Text.lower = Text.lower t.base :: rights t.hops := by
  rw [tables, List.map_cons, List.map_map]
  rfl

/-! ### Hops that are connected -/

/-- Some join has the two tables at its ends, in one direction or the other. -/
def Ties (hops : List Join) (a b : String) : Prop :=
  ∃ j ∈ hops, j.left.tableKey = a ∧ j.right.tableKey = b ∨ j.right.tableKey = a ∧ j.left.tableKey = b

/-- Joins lead from the one table to the other, any number of them and in either direction. -/
def Connected (hops : List Join) : String → String → Prop :=
  Relation.ReflTransGen (Ties hops)

/-- A property that both ends of each join have, or none, goes along the joins. -/
theorem Connected.property {a b : String} (h : Connected hops a b) {P : String → Prop}
    (hends : ∀ j ∈ hops, (P j.left.tableKey ↔ P j.right.tableKey)) (ha : P a) : P b := by
  induction h with
  | refl => exact ha
  | tail _ hties ih =>
      obtain ⟨j, hj, ⟨rfl, rfl⟩ | ⟨rfl, rfl⟩⟩ := hties
      · exact (hends j hj).1 ih
      · exact (hends j hj).2 ih

/-- Both ends of a join are connected with a table, or none. -/
theorem connected_left_iff {a : String} {j : Join} (hj : j ∈ hops) :
    Connected hops a j.left.tableKey ↔ Connected hops a j.right.tableKey :=
  ⟨fun h => h.tail ⟨j, hj, .inl ⟨rfl, rfl⟩⟩, fun h => h.tail ⟨j, hj, .inr ⟨rfl, rfl⟩⟩⟩

/-- Where all joins are taken, a property of the tables that were there is one of all tables, by
induction on the joins that are left. -/
theorem forall_of_orient? {scope : List String} {pending : List Join}
    (h : orient? scope pending = some joins) {P : String → Prop} (hscope : ∀ v ∈ scope, P v)
    (hends : ∀ j ∈ pending, (P j.left.tableKey ↔ P j.right.tableKey)) :
    ∀ j ∈ pending, P j.left.tableKey := by
  fun_induction orient? scope pending generalizing joins with
  | case1 scope pending hnil =>
      obtain rfl := List.isEmpty_iff.1 hnil
      exact fun j hj => absurd hj List.not_mem_nil
  | case2 => cases h
  | case3 scope pending _ k rest hpick next =>
      rename_i ih
      obtain ⟨js, hjs, -⟩ := Option.map_eq_some_iff.1 h
      have hperm := perm_of_pick? hpick
      have hk := hends k (hperm.subset List.mem_cons_self)
      have hleft : P next.left.tableKey := hscope _ (left_towards_mem (accepts_of_pick? hpick))
      -- whichever end was there, both of them have the property
      have hboth : P k.left.tableKey ∧ P next.right.tableKey := by
        obtain heq | heq := towards_eq_or scope k
        · rw [show next = k from heq] at hleft ⊢
          exact ⟨hleft, hk.1 hleft⟩
        · rw [show next = k.flipped from heq] at hleft ⊢
          exact ⟨hk.2 hleft, hk.2 hleft⟩
      have hrest := ih hjs (List.forall_mem_cons.2 ⟨hboth.2, hscope⟩) fun j hj =>
        hends j (hperm.subset (List.mem_cons_of_mem _ hj))
      intro j hj
      obtain rfl | hj := List.mem_cons.1 (hperm.symm.subset hj)
      · exact hboth.1
      · exact hrest j hj

/-- Turning the joins round fails exactly if one of them is not connected with the first table. -/
theorem orient?_eq_none_iff {first : String} :
    orient? [first] hops = none ↔ ∃ j ∈ hops, ¬ Connected hops first j.left.tableKey := by
  constructor
  · intro h
    by_contra hall
    rw [not_exists] at hall
    have hconnected : ∀ j ∈ hops, Connected hops first j.left.tableKey := fun j hj => by
      by_contra hno
      exact hall j ⟨hj, hno⟩
    -- if all hops were connected, they would span their left tables, and could be turned
    have hspans : Spans [first] hops (hops.map fun j => j.left.tableKey) := by
      intro P hscope hends v hv
      obtain ⟨j, hj, rfl⟩ := List.mem_map.1 hv
      exact (hconnected j hj).property hends (hscope first List.mem_cons_self)
    obtain ⟨joins, hjoins, -⟩ := hspans.exists_orient? fun j hj =>
      List.mem_map_of_mem (f := fun j : Join => j.left.tableKey) hj
    rw [h] at hjoins
    cases hjoins
  · rintro ⟨j, hj, hno⟩
    cases h : orient? [first] hops with
    | none => rfl
    | some joins =>
        -- where all hops can be turned, each left table is reached
        refine absurd (forall_of_orient? h ?_ (fun k hk => connected_left_iff hk) j hj) hno
        exact List.forall_mem_singleton.2 .refl

/-! ### Another table to start from -/

theorem joinsFrom_eq_ok_iff :
    t.joinsFrom root = .ok joins ↔ orient? [Text.lower root] t.hops = some joins := by
  unfold joinsFrom
  split
  · next horient => rw [horient, Except.ok.injEq, Option.some.injEq]
  · next horient => simp [horient]

theorem joinsFrom_eq_error_iff {e : Failure} :
    t.joinsFrom root = .error e ↔
      orient? [Text.lower root] t.hops = none ∧ e = disconnected root := by
  unfold joinsFrom
  split
  · next horient => simp [horient]
  · next horient => simp [horient, eq_comm]

/-- The hops of any join tree, turned round for a query that starts from `root`.  Where the hops are
rooted at the base and `root` is one of the tables, the joins are rooted at `root`; they are the
hops, each once and in one direction or the other, and with `root` they bring in each table once.
They cannot be made, for hops of any shape, exactly if some hop is not connected with `root`. -/
theorem joinsFrom_turns (t : JoinTree) (root : String) :
    (RootedAt t.base t.hops → t.hasTable root = true →
      ∃ joins, t.joinsFrom root = .ok joins ∧ RootedAt root joins ∧
        (∃ taken, taken.Perm t.hops ∧
          List.Forall₂ (fun j k : Join => j = k ∨ j = k.flipped) joins taken) ∧
        (Text.lower root :: rights joins).Perm (t.tables.map Text.lower) ∧
        (t.tables.map Text.lower).Nodup) ∧
      ∀ e, t.joinsFrom root = .error e ↔
        e = disconnected root ∧
          ∃ j ∈ t.hops, ¬ Connected t.hops (Text.lower root) j.left.tableKey := by
  refine ⟨fun hrooted hroot => ?_, fun e => ?_⟩
  · have hscope : Query.joinScope [Text.lower t.base] (sides t.hops) =
        .ok (t.tables.map Text.lower) :=
      joinScope_eq_ok_iff_rootedAt.2 ⟨hrooted, t.map_lower_tables⟩
    obtain ⟨joins, hjoins, hturned, hperm⟩ :=
      exists_orient?_of_joinScope hscope (hasTable_iff.1 hroot)
    have hnodup := nodup_of_joinScope hscope (List.nodup_singleton _)
    exact ⟨joins, joinsFrom_eq_ok_iff.2 hjoins, (joinScope_eq_ok_iff_rootedAt.1 hturned).1,
      exists_perm_of_orient? hjoins, hperm, hnodup⟩
  · rw [joinsFrom_eq_error_iff, orient?_eq_none_iff, and_comm]

/-- Lines of orders, joined with the orders and then with the customers. -/
def orderLines : JoinTree where
  base := "order_items"
  root := "order_items"
  hops := [{ left := ⟨"order_items", "order_id", none⟩, right := ⟨"orders", "id", none⟩ },
    { left := ⟨"Orders", "customer_id", none⟩, right := ⟨"customers", "id", none⟩ }]

/-- From the customers both hops are taken the other way round, the last one first. -/
theorem joinsFrom_turns_orderLines :
    RootedAt orderLines.base orderLines.hops ∧ orderLines.hasTable "Customers" = true ∧
      ∃ joins, orderLines.joinsFrom "Customers" = .ok joins ∧ RootedAt "Customers" joins ∧
        joins.map (fun j => (j.left.path, j.right.path)) =
          [("customers.id", "Orders.customer_id"), ("orders.id", "order_items.order_id")] := by
  have hscope : Query.joinScope [Text.lower orderLines.base] (sides orderLines.hops) =
      .ok ["order_items", "orders", "customers"] := rfl
  have hrooted : RootedAt orderLines.base orderLines.hops :=
    (joinScope_eq_ok_iff_rootedAt.1 hscope).1
  have hthere : orderLines.hasTable "Customers" = true := by decide +kernel
  obtain ⟨joins, hjoins, hturned, -⟩ := (joinsFrom_turns orderLines "Customers").1 hrooted hthere
  have hpaths : ((orderLines.joinsFrom "Customers").map fun joins =>
      joins.map fun j => (j.left.path, j.right.path)) =
        .ok [("customers.id", "Orders.customer_id"), ("orders.id", "order_items.order_id")] := by
    decide +kernel
  rw [hjoins] at hpaths
  exact ⟨hrooted, hthere, joins, hjoins, hturned, Except.ok.inj hpaths⟩

end JoinTree
end AskSql
