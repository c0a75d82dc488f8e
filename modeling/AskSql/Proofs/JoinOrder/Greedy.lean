import AskSql.Proofs.Decimal.Product
import AskSql.Proofs.JoinOrder.Optimum
import Mathlib.Data.Prod.Lex
import Mathlib.Data.String.Basic

/-!
# The greedy order

The tables of a well scoped query hang together, so an edge leads out of any of them as long as not
all are placed (`exists_mem_nextTables`), and the greedy walk comes to an end without falling back
on the order of the query (`exists_greedyFrom?`).

Of the tables that can be joined it takes the one that stands first by its rows, which are always a
number (`isNaN_filteredRows`), and then by its name (`standing`).  No two tables stand alike, and
which of them can be joined is a matter of the edges alone.  So two queries over the same tables,
with the same edges and the same numbers of rows, are walked through alike, whichever table they
start from and in whatever order they list their joins (`greedyOrder_of_network`).
-/

namespace AskSql

theorem selectivity_bounds (c : Comparison) : 0 ≤ c.selectivity ∧ c.selectivity ≤ 1 := by
  cases c <;> decide

theorem combinedSelectivity_bounds (cs : List Condition) :
    0 ≤ combinedSelectivity cs ∧ combinedSelectivity cs ≤ 1 := by
  have hfold : ∀ (cs : List Condition) (share : Float), 0 ≤ share ∧ share ≤ 1 →
      0 ≤ cs.foldl (fun share c => share * c.op.selectivity) share ∧
        cs.foldl (fun share c => share * c.op.selectivity) share ≤ 1 := by
    intro cs
    induction cs with
    | nil => exact fun _ h => h
    | cons c cs ih => exact fun share h => ih _ (Decimal.mul_le_one h (selectivity_bounds c.op))
  rw [combinedSelectivity]
  obtain h | h := Decimal.larger_cases (cs.foldl (fun share c => share * c.op.selectivity) 1.0)
    minSelectivity
  · rw [h]
    exact hfold cs 1.0 (by decide)
  · rw [h]
    decide

namespace Query

variable {q q' : Query} {m m' : CostModel}

/-! ### Always a table to go on with -/

/-- An edge of the query ties two tables, given by their names in small letters. -/
def Linked (q : Query) (s t : String) : Prop :=
  ∃ j ∈ q.joins, (j.left.tableKey = s ∧ j.right.tableKey = t) ∨
    (j.left.tableKey = t ∧ j.right.tableKey = s)

theorem ties_iff_linked {a b : Nat} : q.Ties a b ↔ q.Linked (q.keyAt a) (q.keyAt b) :=
  Iff.rfl

theorem Linked.symm {s t : String} (h : q.Linked s t) : q.Linked t s := by
  obtain ⟨j, hj, hends⟩ := h
  exact ⟨j, hj, hends.symm⟩

/-- Each table but the source is tied to an earlier one. -/
theorem WellScoped.exists_ties {i : Nat} (hq : q.WellScoped) (hi : i + 1 < q.tables.length) :
    ∃ k ≤ i, q.Ties k (i + 1) := by
  have hlt : i < q.joins.length := by
    rw [length_tables] at hi
    omega
  have hj : q.joins[i]? = some q.joins[i] := List.getElem?_eq_getElem hlt
  have hleft := hq.left_known i _ hj
  rw [scopeAfter_eq_map_keyAt q (Nat.le_of_lt hlt)] at hleft
  obtain ⟨k, hk, hkey⟩ := List.mem_map.1 hleft
  exact ⟨k, by simpa [Nat.lt_succ_iff] using hk, _, List.getElem_mem hlt,
    .inl ⟨hkey.symm, (keyAt_succ hj).symm⟩⟩

/-- Tables that no edge leads out of are all of them or none. -/
theorem WellScoped.mem_iff_of_closed {placed : List Nat} (hq : q.WellScoped)
    (hclosed : ∀ a < q.tables.length, ∀ b < q.tables.length, q.Ties a b → a ∈ placed → b ∈ placed) :
    ∀ i < q.tables.length, (i ∈ placed ↔ 0 ∈ placed) := by
  intro i
  -- every table hangs on an earlier one, and so in the end on the source
  induction i using Nat.strong_induction_on with
  | _ i ih =>
      intro hi
      cases i with
      | zero => exact Iff.rfl
      | succ i =>
          obtain ⟨k, hk, hties⟩ := hq.exists_ties hi
          have hklt : k < q.tables.length := by omega
          rw [← ih k (by omega) hklt]
          exact ⟨hclosed _ hi _ hklt (ties_iff_linked.1 hties).symm, hclosed _ hklt _ hi hties⟩

/-- As long as a table is missing, there is one to go on with. -/
theorem WellScoped.exists_mem_nextTables {placed : List Nat} {t : Nat} (hq : q.WellScoped)
    (hlt : ∀ p ∈ placed, p < q.tables.length) (ht : t < q.tables.length) (hmissing : t ∉ placed) :
    ∃ u, u ∈ q.nextTables placed := by
  by_cases hempty : placed = []
  · refine ⟨t, ?_⟩
    simpa [nextTables, hempty] using ht
  · by_contra hnone
    have hclosed : ∀ a < q.tables.length, ∀ b < q.tables.length, q.Ties a b → a ∈ placed →
        b ∈ placed := by
      intro a _ b hb hties ha
      by_contra hnew
      exact hnone ⟨b, (mem_nextTables hempty).2 ⟨hb, hnew, exists_edgeTo?_iff.2 ⟨a, ha, hties⟩⟩⟩
    obtain ⟨p, hp⟩ := List.exists_mem_of_ne_nil placed hempty
    have hall := hq.mem_iff_of_closed hclosed
    exact hmissing ((hall t ht).2 ((hall p (hlt p hp)).1 hp))

theorem exists_foremost? {ts : List Nat} {t : Nat} (h : t ∈ ts) :
    ∃ u, q.foremost? m ts = some u := by
  cases ts with
  | nil => cases h
  | cons t ts => exact ⟨_, rfl⟩

/-- The walk comes to an end from any tables that are placed. -/
theorem exists_greedyFrom? (hq : q.WellScoped) (m : CostModel) {n : Nat} {placed : List Nat}
    (hlt : ∀ p ∈ placed, p < q.tables.length) (hcount : placed.length + n = q.tables.length) :
    ∃ order, q.greedyFrom? m n placed = some order := by
  induction n generalizing placed with
  | zero => exact ⟨placed, rfl⟩
  | succ n ih =>
      -- fewer tables are placed than there are
      obtain ⟨t, ht, hmissing⟩ : ∃ t < q.tables.length, t ∉ placed := by
        by_contra hfull
        have hsubset : List.range q.tables.length ⊆ placed := by
          intro t ht
          by_contra hmissing
          exact hfull ⟨t, List.mem_range.1 ht, hmissing⟩
        have hle := (List.nodup_range.subperm hsubset).length_le
        rw [List.length_range] at hle
        omega
      obtain ⟨u, hu⟩ := hq.exists_mem_nextTables hlt ht hmissing
      obtain ⟨next, hnext⟩ := exists_foremost? (q := q) (m := m) hu
      have hnextlt : next < q.tables.length :=
        List.mem_range.1 (List.mem_of_mem_filter (mem_of_foremost? hnext))
      rw [greedyFrom?, hnext]
      apply ih
      · rw [List.forall_mem_append, List.forall_mem_singleton]
        exact ⟨hlt, hnextlt⟩
      · rw [List.length_append, List.length_singleton]
        omega

/-! ### The foremost table -/

theorem isNaN_filteredRows (m : CostModel) (q : Query) (t : Nat) :
    (q.filteredRows m t).isNaN = false :=
  Decimal.isNaN_ofNat_mul _ (combinedSelectivity_bounds _)

/-- What the walk goes by: the rows of a table, then its name. -/
def standing (m : CostModel) (q : Query) (t : Nat) : Int ×ₗ String :=
  toLex (Decimal.rank (q.filteredRows m t), q.keyAt t)

theorem precedes_iff {a b : Nat} :
    q.precedes m a b = true ↔ q.standing m a < q.standing m b := by
  rw [Prod.Lex.lt_iff]
  simp only [precedes, standing, Bool.or_eq_true, Bool.and_eq_true, decide_eq_true_eq,
    Decimal.lt_iff, Decimal.beq_iff, isNaN_filteredRows, true_and]
  rfl

/-- The foremost of some tables stands before all others. -/
theorem standing_le_of_foremost? {ts : List Nat} {t : Nat} (h : q.foremost? m ts = some t) :
    ∀ u ∈ ts, q.standing m t ≤ q.standing m u := by
  -- whatever stands first so far, the walk through the rest ends before it and before the rest
  have hfold : ∀ (ts : List Nat) (best : Nat), ∀ u ∈ best :: ts,
      q.standing m (ts.foldl (fun best t => if q.precedes m t best then t else best) best) ≤
        q.standing m u := by
    intro ts
    induction ts with
    | nil =>
        intro best u hu
        rw [List.mem_singleton.1 hu]
        exact le_refl _
    | cons t ts ih =>
        intro best u hu
        rw [List.foldl_cons]
        by_cases hless : q.precedes m t best = true
        · rw [if_pos hless]
          obtain rfl | hu := List.mem_cons.1 hu
          · exact (ih t t List.mem_cons_self).trans (precedes_iff.1 hless).le
          · exact ih t u hu
        · rw [if_neg hless]
          have hle : q.standing m best ≤ q.standing m t :=
            not_lt.1 fun hlt => hless (precedes_iff.2 hlt)
          simp only [List.mem_cons] at hu
          obtain rfl | rfl | hu := hu
          · exact ih u u List.mem_cons_self
          · exact (ih best best List.mem_cons_self).trans hle
          · exact ih best u (List.mem_cons_of_mem best hu)
  cases ts with
  | nil => cases h
  | cons t' ts =>
      obtain rfl := Option.some.inj h
      exact hfold ts t'

/-! ### Two queries over one network -/

/-- Two queries join the same tables by the same edges, and as many rows of each table are left in
the one as in the other. -/
structure SameNetwork (m m' : CostModel) (q q' : Query) : Prop where
  tables : ∀ t, t ∈ q.tableKeys ↔ t ∈ q'.tableKeys
  edges : ∀ s t, q.Linked s t ↔ q'.Linked s t
  rows : ∀ i < q.tables.length, ∀ k < q'.tables.length, q.keyAt i = q'.keyAt k →
    (q.filteredRows m i == q'.filteredRows m' k) = true

theorem mem_tableKeys_iff_keyAt {s : String} :
    s ∈ q.tableKeys ↔ ∃ i < q.tables.length, q.keyAt i = s := by
  rw [← map_keyAt_range]
  simp

/-- Which tables can be joined next is a matter of names and edges. -/
theorem WellScoped.mem_keys_nextTables_iff (hq : q.WellScoped) {placed : List Nat} {s : String}
    (hlt : ∀ p ∈ placed, p < q.tables.length) :
    s ∈ (q.nextTables placed).map q.keyAt ↔
      s ∈ q.tableKeys ∧ (placed.map q.keyAt = [] ∨
        s ∉ placed.map q.keyAt ∧ ∃ r ∈ placed.map q.keyAt, q.Linked r s) := by
  by_cases hempty : placed = []
  · simp [hempty, nextTables, mem_tableKeys_iff_keyAt]
  · simp only [List.mem_map, mem_nextTables hempty, exists_edgeTo?_iff, mem_tableKeys_iff_keyAt,
      List.map_eq_nil_iff, hempty, false_or]
    constructor
    · rintro ⟨t, ⟨ht, hnew, p, hp, hties⟩, rfl⟩
      refine ⟨⟨t, ht, rfl⟩, ?_, _, ⟨p, hp, rfl⟩, hties⟩
      rintro ⟨p', hp', hkey⟩
      exact hnew (hq.keyAt_inj (hlt p' hp') ht hkey ▸ hp')
    · rintro ⟨⟨t, ht, rfl⟩, hnew, _, ⟨p, hp, rfl⟩, hlinked⟩
      exact ⟨t, ⟨ht, fun hmem => hnew ⟨t, hmem, rfl⟩, p, hp, hlinked⟩, rfl⟩

namespace SameNetwork

theorem symm (h : SameNetwork m m' q q') : SameNetwork m' m q' q where
  tables t := (h.tables t).symm
  edges s t := (h.edges s t).symm
  rows := by
    intro i hi k hk hkey
    have hrows := (Decimal.beq_iff _ _).1 (h.rows k hk i hi hkey.symm)
    exact (Decimal.beq_iff _ _).2 ⟨hrows.2.1, hrows.1, hrows.2.2.symm⟩

theorem standing_eq (h : SameNetwork m m' q q') {i k : Nat} (hi : i < q.tables.length)
    (hk : k < q'.tables.length) (hkey : q.keyAt i = q'.keyAt k) :
    q.standing m i = q'.standing m' k := by
  rw [standing, standing, ((Decimal.beq_iff _ _).1 (h.rows i hi k hk hkey)).2.2, hkey]

/-- The table that one query goes on with stands no later than the one that the other goes on
with. -/
theorem standing_le (h : SameNetwork m m' q q') (hq : q.WellScoped) (hq' : q'.WellScoped)
    {placed placed' : List Nat} {t t' : Nat} (hlt : ∀ p ∈ placed, p < q.tables.length)
    (hlt' : ∀ p ∈ placed', p < q'.tables.length)
    (hsame : placed.map q.keyAt = placed'.map q'.keyAt)
    (ht : q.foremost? m (q.nextTables placed) = some t)
    (ht' : q'.foremost? m' (q'.nextTables placed') = some t') :
    q.standing m t ≤ q'.standing m' t' := by
  have hnext : ∀ u ∈ q.nextTables placed, u < q.tables.length := fun u hu =>
    List.mem_range.1 (List.mem_of_mem_filter hu)
  have hmem' := mem_of_foremost? ht'
  -- the table of the other query can be joined in this one as well
  have hkey : q'.keyAt t' ∈ (q.nextTables placed).map q.keyAt := by
    have hother := (hq'.mem_keys_nextTables_iff hlt').1 (List.mem_map_of_mem hmem')
    rw [← hsame, ← h.tables] at hother
    rw [hq.mem_keys_nextTables_iff hlt]
    refine ⟨hother.1, hother.2.imp_right ?_⟩
    rintro ⟨hnew, r, hr, hlinked⟩
    exact ⟨hnew, r, hr, (h.edges _ _).2 hlinked⟩
  obtain ⟨u, hu, hkey⟩ := List.mem_map.1 hkey
  have hle := standing_le_of_foremost? ht u hu
  have hstand := h.standing_eq (hnext u hu)
    (List.mem_range.1 (List.mem_of_mem_filter hmem')) hkey
  rwa [hstand] at hle

/-- The two walks take the same tables. -/
theorem map_keyAt_greedyFrom? (h : SameNetwork m m' q q') (hq : q.WellScoped)
    (hq' : q'.WellScoped) {n : Nat} {placed placed' order order' : List Nat}
    (hlt : ∀ p ∈ placed, p < q.tables.length) (hlt' : ∀ p ∈ placed', p < q'.tables.length)
    (hsame : placed.map q.keyAt = placed'.map q'.keyAt)
    (horder : q.greedyFrom? m n placed = some order)
    (horder' : q'.greedyFrom? m' n placed' = some order') :
    order.map q.keyAt = order'.map q'.keyAt := by
  induction n generalizing placed placed' with
  | zero =>
      obtain rfl := Option.some.inj horder
      obtain rfl := Option.some.inj horder'
      exact hsame
  | succ n ih =>
      rw [greedyFrom?] at horder horder'
      split at horder
      · next t ht =>
          split at horder'
          · next t' ht' =>
              -- tables that stand alike have the same name
              have hstand : q.standing m t = q'.standing m' t' :=
                le_antisymm (h.standing_le hq hq' hlt hlt' hsame ht ht')
                  (h.symm.standing_le hq' hq hlt' hlt hsame.symm ht' ht)
              have hkey : q.keyAt t = q'.keyAt t' := congrArg (fun s => (ofLex s).2) hstand
              have htlt := List.mem_range.1 (List.mem_of_mem_filter (mem_of_foremost? ht))
              have htlt' := List.mem_range.1 (List.mem_of_mem_filter (mem_of_foremost? ht'))
              refine ih ?_ ?_ ?_ horder horder'
              · rw [List.forall_mem_append, List.forall_mem_singleton]
                exact ⟨hlt, htlt⟩
              · rw [List.forall_mem_append, List.forall_mem_singleton]
                exact ⟨hlt', htlt'⟩
              · rw [List.map_append, List.map_append, hsame, List.map_singleton,
                  List.map_singleton, hkey]
          · cases horder'
      · cases horder

theorem length_tables_eq (h : SameNetwork m m' q q') (hq : q.WellScoped) (hq' : q'.WellScoped) :
    q.tables.length = q'.tables.length := by
  have hperm : q.tableKeys.Perm q'.tableKeys :=
    (List.perm_ext_iff_of_nodup hq.tableKeys_nodup hq'.tableKeys_nodup).2 h.tables
  simpa [tableKeys] using hperm.length_eq

end SameNetwork

theorem greedyFrom?_greedyOrder (hq : q.WellScoped) (m : CostModel) :
    q.greedyFrom? m q.tables.length [] = some (q.greedyOrder m) := by
  obtain ⟨order, horder⟩ : ∃ order, q.greedyFrom? m q.tables.length [] = some order :=
    exists_greedyFrom? hq m (List.forall_mem_nil _) (Nat.zero_add _)
  rw [greedyOrder, horder, Option.getD_some]

/-- The greedy walk never falls back on the order of the query: it ends with an order that lists
every table once and each but the first behind one that it shares an edge with.  Another query over
the same tables, with the same edges and as many rows left of each table, gets the same order, table
by table. -/
theorem greedyOrder_of_network (hvalid : q.validate = .ok ()) (m : CostModel) :
    q.greedyFrom? m q.tables.length [] = some (q.greedyOrder m) ∧ q.IsOrder (q.greedyOrder m) ∧
      ∀ (q' : Query) (m' : CostModel), q'.validate = .ok () → SameNetwork m m' q q' →
        (q.greedyOrder m).map q.keyAt = (q'.greedyOrder m').map q'.keyAt := by
  have hq := (validate_eq_ok_iff q).1 hvalid
  have hwalk := greedyFrom?_greedyOrder hq m
  refine ⟨hwalk, mem_orders_iff.1 (mem_ordersFrom_of_greedyFrom? hwalk), ?_⟩
  intro q' m' hvalid' h
  have hq' := (validate_eq_ok_iff q').1 hvalid'
  have hwalk' := greedyFrom?_greedyOrder hq' m'
  rw [← h.length_tables_eq hq hq'] at hwalk'
  exact h.map_keyAt_greedyFrom? hq hq' (List.forall_mem_nil _) (List.forall_mem_nil _) rfl hwalk
    hwalk'

/-- The items of the orders of one customer, asked for from the customers on. -/
def itemsOfCustomers : Query where
  source := "Customers"
  items := [.column ⟨"items", "id", none⟩]
  joins := [
    { left := ⟨"customers", "id", none⟩, right := ⟨"Orders", "customer_id", none⟩
      conditions := [.compare ⟨"customers", "name", none⟩ .eq (.text "Ann")] },
    { left := ⟨"orders", "id", none⟩, right := ⟨"items", "order_id", none⟩ }]

/-- Both queries start with the customers, of whom the fewest are left, and cannot but go on with
the orders. -/
theorem greedyOrder_of_network_customerItems :
    customerItems.validate = .ok () ∧ itemsOfCustomers.validate = .ok () ∧
      SameNetwork ⟨shopSizes, {}⟩ ⟨shopSizes, {}⟩ customerItems itemsOfCustomers ∧
      (customerItems.greedyOrder ⟨shopSizes, {}⟩).map customerItems.keyAt =
        (itemsOfCustomers.greedyOrder ⟨shopSizes, {}⟩).map itemsOfCustomers.keyAt := by
  have hvalid : customerItems.validate = .ok () := rfl
  have hvalid' : itemsOfCustomers.validate = .ok () := rfl
  have hkeys : customerItems.tableKeys = ["orders", "items", "customers"] := by decide
  have hkeys' : itemsOfCustomers.tableKeys = ["customers", "orders", "items"] := by decide
  have hsame : SameNetwork ⟨shopSizes, {}⟩ ⟨shopSizes, {}⟩ customerItems itemsOfCustomers := by
    refine ⟨fun t => ?_, fun s t => ?_, by decide +kernel⟩
    · rw [hkeys, hkeys']
      simp only [List.mem_cons, List.not_mem_nil, or_false]
      tauto
    · have hlower : Text.lower "Orders" = "orders" := by decide
      have hsmall : Text.lower "orders" = "orders" ∧ Text.lower "items" = "items" ∧
          Text.lower "customers" = "customers" := by decide
      simp only [Linked, customerItems, itemsOfCustomers, Reference.tableKey, hlower, hsmall,
        List.exists_mem_cons_iff, List.not_mem_nil, false_and, exists_false, or_false]
      tauto
  obtain ⟨-, -, hwalks⟩ := greedyOrder_of_network hvalid ⟨shopSizes, {}⟩
  exact ⟨hvalid, hvalid', hsame, hwalks _ _ hvalid' hsame⟩

end Query
end AskSql
