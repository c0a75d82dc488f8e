import AskSql.Proofs.Decimal.Order
import AskSql.Proofs.JoinOrder.Enumeration
import AskSql.Proofs.JoinOrder.Rows
import AskSql.Proofs.JoinOrder.Search

/-!
# The exhaustive search finds a cheapest order

A search through all orders keeps the best query that it has come across.  After some orders it has
counted each of them, and no plan of theirs is cheaper than the one it holds (`Query.Tried`).  It
stops where it has tried as many orders as it may and there is another one.  So it either gives up,
with its whole budget spent, or has tried every connected order, and then it proposes a cheapest one
if that is cheaper than the query itself (`Query.searchJoins_cheapest`).

Cost constants may be no numbers, and then plans cannot be compared; all of this is about costs that
are numbers (`Query.Comparable`).
-/

namespace AskSql

namespace Query

variable {m : CostModel} {q : Query}

/-- The costs of the query as it is and in all of its orders are numbers. -/
structure Comparable (m : CostModel) (q : Query) : Prop where
  given : (m.planCost q).isNaN = false
  reordered : ∀ order c, q.IsOrder order → q.reordered? order = some c →
    (m.planCost c).isNaN = false

/-- Where a search stands after some orders: it has counted them, what it holds was made of one of
them, and no plan of theirs is cheaper. -/
structure Tried (m : CostModel) (q : Query) (tried : List (List Nat)) (s : SearchState) : Prop where
  evaluated_eq : s.evaluated = tried.length
  best_tried : ∀ b cost, s.best = some (b, cost) →
    cost = m.planCost b ∧ ∃ order ∈ tried, q.reordered? order = some b
  best_least : ∀ order ∈ tried, ∀ c, q.reordered? order = some c →
    ∃ b cost, s.best = some (b, cost) ∧ cost ≤ m.planCost c

theorem tried_nil (m : CostModel) (q : Query) : q.Tried m [] {} where
  evaluated_eq := rfl
  best_tried := nofun
  best_least := nofun

/-- The better of two queries costs no more than either of them. -/
theorem exists_better_le {best : Option (Query × Float)} {c : Query} {cost : Float}
    (hcost : cost.isNaN = false) (hbest : ∀ b held, best = some (b, held) → held.isNaN = false) :
    ∃ b least, better best c cost = some (b, least) ∧ least ≤ cost ∧
      ∀ b' held, best = some (b', held) → least ≤ held := by
  cases best with
  | none => exact ⟨c, cost, rfl, Decimal.le_self hcost, nofun⟩
  | some p =>
      obtain ⟨b, held⟩ := p
      have hheld : held.isNaN = false := hbest b held rfl
      by_cases hless : cost < held
      · refine ⟨c, cost, if_pos hless, Decimal.le_self hcost, ?_⟩
        rintro b' held' heq
        obtain ⟨rfl, rfl⟩ := Prod.mk.inj (Option.some.inj heq)
        exact Decimal.le_of_lt hless
      · refine ⟨b, held, if_neg hless, Decimal.le_of_not_lt hcost hheld hless, ?_⟩
        rintro b' held' heq
        obtain ⟨rfl, rfl⟩ := Prod.mk.inj (Option.some.inj heq)
        exact Decimal.le_self hheld

theorem tryOrder_of_lt {s : SearchState} (h : s.evaluated < m.settings.maxPermutations)
    (order : List Nat) : q.tryOrder m s order =
      (⟨s.evaluated + 1, (q.reordered? order).elim s.best fun c =>
        better s.best c (m.planCost c)⟩, true) := by
  rw [tryOrder, if_neg (Nat.not_le.2 h)]
  cases q.reordered? order with
  | none => rfl
  | some c => rfl

/-- One order more. -/
theorem Tried.concat {tried : List (List Nat)} {s : SearchState} {order : List Nat}
    (h : q.Tried m tried s) (hbudget : s.evaluated < m.settings.maxPermutations)
    (hnumber : ∀ o ∈ tried ++ [order], ∀ c, q.reordered? o = some c →
      (m.planCost c).isNaN = false) :
    q.Tried m (tried ++ [order]) (q.tryOrder m s order).1 where
  evaluated_eq := by
    rw [tryOrder_of_lt hbudget, h.evaluated_eq, List.length_append, List.length_singleton]
  best_tried := by
    refine tryOrder_best (fun c hc => ⟨rfl, order, by simp, hc⟩) fun b cost hbest => ?_
    obtain ⟨hcost, o, ho, hb⟩ := h.best_tried b cost hbest
    exact ⟨hcost, o, List.mem_append_left _ ho, hb⟩
  best_least := by
    intro o ho c hc
    rw [tryOrder_of_lt hbudget]
    have hheld : ∀ b cost, s.best = some (b, cost) → cost.isNaN = false := by
      intro b cost hbest
      obtain ⟨rfl, o', ho', hb⟩ := h.best_tried b cost hbest
      exact hnumber o' (List.mem_append_left _ ho') b hb
    -- the new best is no dearer than the old one, and so than the earlier orders
    rcases List.mem_append.1 ho with hearlier | hnew
    · obtain ⟨b, held, hbest, hle⟩ := h.best_least o hearlier c hc
      cases hcandidate : q.reordered? order with
      | none => exact ⟨b, held, hbest, hle⟩
      | some c' =>
          have hcost := hnumber order (by simp) c' hcandidate
          obtain ⟨b', least, hbetter, -, hleast⟩ := exists_better_le (c := c') hcost hheld
          exact ⟨b', least, hbetter, Decimal.le_trans (hleast b held hbest) hle⟩
    · rw [List.mem_singleton.1 hnew] at hc
      have hcost := hnumber order (by simp) c hc
      obtain ⟨b, least, hbetter, hle, -⟩ := exists_better_le (c := c) hcost hheld
      rw [hc]
      exact ⟨b, least, hbetter, hle⟩

/-- The whole run: all orders are tried where the budget is large enough, and where it is not, it is
spent. -/
theorem Tried.foldUntil {tried rest : List (List Nat)} {s : SearchState} (h : q.Tried m tried s)
    (hbudget : s.evaluated ≤ m.settings.maxPermutations)
    (hnumber : ∀ o ∈ tried ++ rest, ∀ c, q.reordered? o = some c → (m.planCost c).isNaN = false) :
    ((tried ++ rest).length ≤ m.settings.maxPermutations →
        ∃ s', AskSql.foldUntil (q.tryOrder m) s rest = (s', true) ∧ q.Tried m (tried ++ rest) s') ∧
      (m.settings.maxPermutations < (tried ++ rest).length →
        ∃ s', AskSql.foldUntil (q.tryOrder m) s rest = (s', false) ∧
          s'.evaluated = m.settings.maxPermutations) := by
  have hcount := h.evaluated_eq
  -- along the orders that are left: either the budget is spent, or one more is tried
  induction rest generalizing tried s with
  | nil =>
      rw [List.append_nil]
      refine ⟨fun _ => ⟨s, rfl, h⟩, fun hover => ?_⟩
      omega
  | cons order rest ih =>
      have hlength : (tried ++ order :: rest).length = tried.length + 1 + rest.length := by
        simp only [List.length_append, List.length_cons]
        omega
      by_cases hspent : m.settings.maxPermutations ≤ s.evaluated
      · have hstop : AskSql.foldUntil (q.tryOrder m) s (order :: rest) = (s, false) := by
          rw [AskSql.foldUntil, tryOrder, if_pos hspent]
        refine ⟨fun hfits => ?_, fun _ => ⟨s, hstop, ?_⟩⟩
        · omega
        · omega
      · have hmore : s.evaluated < m.settings.maxPermutations := Nat.lt_of_not_le hspent
        have hstep : AskSql.foldUntil (q.tryOrder m) s (order :: rest) =
            AskSql.foldUntil (q.tryOrder m) (q.tryOrder m s order).1 rest := by
          rw [AskSql.foldUntil, tryOrder_of_lt hmore]
        have hsplit : tried ++ order :: rest = (tried ++ [order]) ++ rest := by simp
        have hnext := h.concat hmore fun o ho => hnumber o (by
          rw [hsplit]
          exact List.mem_append_left _ ho)
        rw [hstep, hsplit]
        rw [hsplit] at hnumber
        apply ih hnext _ hnumber hnext.evaluated_eq
        rw [tryOrder_of_lt hmore]
        exact hmore

/-- A search through all orders of a query with few joins gives up, with its budget spent, just where
there are more connected orders than it may try.  Otherwise it tries all of them, and what it
proposes is made of one of them, no dearer than any of them and cheaper than the query itself; it
proposes nothing where none of them is cheaper. -/
theorem searchJoins_cheapest (hvalid : q.validate = .ok ()) (hinner : q.isReorderable = true)
    (hfew : q.joins.length < m.settings.maxExhaustiveJoins) (hnumbers : q.Comparable m) :
    (m.settings.maxPermutations < {order | q.IsOrder order}.ncard →
        q.searchJoins m = .degraded m.settings.maxPermutations) ∧
      ({order | q.IsOrder order}.ncard ≤ m.settings.maxPermutations →
        (∃ c cost, q.searchJoins m = .reordered c cost {order | q.IsOrder order}.ncard ∧
            cost = m.planCost c ∧ cost < m.planCost q ∧
            (∃ order, q.IsOrder order ∧ q.reordered? order = some c) ∧
            ∀ order, q.IsOrder order →
              ∃ c', q.reordered? order = some c' ∧ cost ≤ m.planCost c') ∨
          (q.searchJoins m = .unchanged {order | q.IsOrder order}.ncard ∧
            ∀ order, q.IsOrder order →
              ∃ c, q.reordered? order = some c ∧ ¬m.planCost c < m.planCost q)) := by
  have hq := (validate_eq_ok_iff q).1 hvalid
  have hexists : ∀ order, q.IsOrder order → ∃ c, q.reordered? order = some c := by
    intro order horder
    obtain ⟨c, hc, -⟩ := exists_reordering hq (mem_orders_iff.2 horder)
    exact ⟨c, hc⟩
  have hsearch : q.searchJoins m = q.searchAll m := by
    rw [searchJoins, hinner, if_pos hfew]
    rfl
  have hcosts : ∀ o ∈ [] ++ q.orders, ∀ c, q.reordered? o = some c →
      (m.planCost c).isNaN = false := fun o ho c hc =>
    hnumbers.reordered o c (mem_orders_iff.1 ho) hc
  obtain ⟨hall, hover⟩ := (tried_nil m q).foldUntil (Nat.zero_le _) hcosts
  rw [List.nil_append, ← foldOrders_eq] at hall hover
  rw [hsearch, ncard_isOrder]
  refine ⟨fun hmany => ?_, fun hfits => ?_⟩
  · obtain ⟨s, hs, hspent⟩ := hover hmany
    rw [searchAll, hs, ← hspent]
  · obtain ⟨s, hs, htried⟩ := hall hfits
    -- the order of the query itself is among those that were tried, so there is a best one
    obtain ⟨own, hown⟩ := hexists _ (mem_orders_iff.1 (inputOrder_mem_orders hq))
    obtain ⟨b, cost, hbest, -⟩ := htried.best_least _ (inputOrder_mem_orders hq) own hown
    obtain ⟨hcost, order, horder, hb⟩ := htried.best_tried b cost hbest
    have hleast : ∀ order, q.IsOrder order →
        ∃ c, q.reordered? order = some c ∧ cost ≤ m.planCost c := by
      intro o ho
      obtain ⟨c, hc⟩ := hexists o ho
      obtain ⟨b', cost', hbest', hle⟩ := htried.best_least o (mem_orders_iff.2 ho) c hc
      obtain ⟨rfl, rfl⟩ := Prod.mk.inj (Option.some.inj (hbest.symm.trans hbest'))
      exact ⟨c, hc, hle⟩
    by_cases hless : cost < m.planCost q
    · refine .inl ⟨b, cost, ?_, hcost, hless, ⟨order, mem_orders_iff.1 horder, hb⟩, hleast⟩
      rw [searchAll, hs, ← htried.evaluated_eq]
      simp only [hbest, if_pos hless]
    · refine .inr ⟨?_, fun o ho => ?_⟩
      · rw [searchAll, hs, ← htried.evaluated_eq]
        simp only [hbest, if_neg hless]
      · obtain ⟨c, hc, hle⟩ := hleast o ho
        exact ⟨c, hc, fun hcheaper => hless (Decimal.lt_of_le_of_lt hle hcheaper)⟩

/-- Tables of three sizes. -/
def shopSizes : Schema where
  tables := [{ name := "orders", rowCount := some 1000 }, { name := "items", rowCount := some 5000 },
    { name := "customers", rowCount := some 100 }]

/-- The items of the orders of one customer. -/
def customerItems : Query where
  source := "orders"
  items := [.column ⟨"items", "id", none⟩]
  joins := [
    { left := ⟨"orders", "id", none⟩, right := ⟨"items", "order_id", none⟩ },
    { left := ⟨"orders", "customer_id", none⟩, right := ⟨"customers", "id", none⟩ }]
  filters := [.compare ⟨"customers", "name", none⟩ .eq (.text "Ann")]

/-- Of the four orders the search proposes one in which the customers come before the items. -/
theorem searchJoins_cheapest_customerItems :
    customerItems.validate = .ok () ∧ customerItems.isReorderable = true ∧
      customerItems.Comparable ⟨shopSizes, {}⟩ ∧ {order | customerItems.IsOrder order}.ncard = 4 ∧
      ∃ c cost, customerItems.searchJoins ⟨shopSizes, {}⟩ = .reordered c cost 4 ∧
        cost < CostModel.planCost ⟨shopSizes, {}⟩ customerItems ∧
        ∀ order, customerItems.IsOrder order → ∃ c', customerItems.reordered? order = some c' ∧
          cost ≤ CostModel.planCost ⟨shopSizes, {}⟩ c' := by
  have hvalid : customerItems.validate = .ok () := rfl
  have hcount : {order | customerItems.IsOrder order}.ncard = 4 := by
    rw [ncard_isOrder]
    decide
  obtain ⟨hgiven, hreordered, hproposed⟩ :
      (CostModel.planCost ⟨shopSizes, {}⟩ customerItems).isNaN = false ∧
        (∀ order ∈ customerItems.orders, ∀ c ∈ customerItems.reordered? order,
          (CostModel.planCost ⟨shopSizes, {}⟩ c).isNaN = false) ∧
        (customerItems.searchJoins ⟨shopSizes, {}⟩ matches .reordered ..) = true := by
    decide +kernel
  have hnumbers : customerItems.Comparable ⟨shopSizes, {}⟩ :=
    ⟨hgiven, fun order c horder hc => hreordered order (mem_orders_iff.2 horder) c hc⟩
  obtain ⟨-, hwithin⟩ := searchJoins_cheapest hvalid rfl (by decide) hnumbers
  rw [hcount] at hwithin
  refine ⟨hvalid, rfl, hnumbers, hcount, ?_⟩
  rcases hwithin (by decide) with ⟨c, cost, hc, -, hless, -, hleast⟩ | ⟨hunchanged, -⟩
  · exact ⟨c, cost, hc, hless, hleast⟩
  · rw [hunchanged] at hproposed
    cases hproposed

end Query
end AskSql
