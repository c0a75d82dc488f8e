import AskSql.Proofs.Query.Rows
import AskSql.Reshape.Unnesting

/-!
# Conditions that ask for a member of a subquery

A `Meaning` says nothing of its own about conditions with a subquery.  `Meaning.Asks` is what such a
condition means on a database when the subquery is a plain selection: the column holds a value, and
some row that the subquery reads has this value in the selected column.  How many rows have it plays
no part, and a column without a value is not among anything.

The rows of the subquery depend on what its own conditions mean, subqueries among them.  That there
are meanings with this property is therefore a recursion over queries, `Meaning.asking`.
-/

namespace AskSql

section Subqueries

variable {ν : Type} [DecidableEq ν]

/-- A query without joins reads the rows of its one table that pass its filter. -/
theorem Query.rows_of_joins_eq_nil (db : Contents ν) (I : Meaning ν) {q : Query}
    (h : q.joins = []) :
    q.rows db I = ((db (Text.lower q.source)).map (Combination.empty.bring
      (Text.lower q.source))).filter fun x => q.filters.all fun c => I.holds c x := by
  simp [rows, joinedRows, h, Contents.bringAll]

/-- A condition with a plain subquery holds when some row of the subquery has the value of the
column. -/
def Meaning.Asks (I : Meaning ν) (db : Contents ν) : Prop :=
  ∀ (outer key : Reference) (sub : Query) (x : Combination ν),
    sub.isPlainSelection = true → sub.items = [.column key] →
      (I.holds ⟨.column outer, .isIn, .subquery sub⟩ x = true ↔
        ∃ v, x.value outer = some v ∧ ∃ y ∈ sub.rows db I, y.value key = some v)

/-- Where a condition compares a column with some values: whether the column holds one of them. -/
def Condition.found? (c : Condition) (values : Option (Multiset (Option ν)))
    (x : Combination ν) : Option Bool :=
  match c.lhs, c.op, values with
  | .column outer, .isIn, some vs => some ((x.value outer).isSome && x.value outer ∈ vs)
  | _, _, _ => none

mutual

/-- The values that a plain subquery selects. -/
def Meaning.selected? (J : Meaning ν) (db : Contents ν) : Comparand → Option (Multiset (Option ν))
  | .subquery ⟨source, [.column key], [], filters, [], [], _, none, _⟩ =>
      some ((((db (Text.lower source)).map (Combination.empty.bring (Text.lower source))).filter
        fun x => J.admits db filters x).map fun x => x.value key)
  | _ => none

/-- All of the conditions hold.  A condition that asks for a member of a plain subquery looks for it
among the selected values, every other one means what it means. -/
def Meaning.admits (J : Meaning ν) (db : Contents ν) : List Condition → Combination ν → Bool
  | [], _ => true
  | ⟨lhs, op, rhs⟩ :: cs, x =>
    ((Condition.mk lhs op rhs).found? (J.selected? db rhs) x).getD (J.holds ⟨lhs, op, rhs⟩ x) &&
      J.admits db cs x

end

theorem Condition.found?_congr (c : Condition) (values : Option (Multiset (Option ν)))
    {x y : Combination ν} (h : ∀ t ∈ c.tables, x t = y t) :
    c.found? values x = c.found? values y := by
  obtain ⟨lhs, op, rhs⟩ := c
  unfold found?
  dsimp only
  split
  · next outer vs =>
      have hread : outer.tableKey ∈ (Condition.mk (.column outer) .isIn rhs).tables := by
        rw [mem_tables]
        refine ⟨outer, ?_, rfl⟩
        cases rhs <;> simp [references, Operand.references]
      have hvalue : x.value outer = y.value outer := by
        rw [Combination.value, Combination.value, h _ hread]
      rw [hvalue]
  · rfl

theorem Meaning.admits_eq_all (J : Meaning ν) (db : Contents ν) (cs : List Condition)
    (x : Combination ν) : J.admits db cs x = cs.all fun c => J.admits db [c] x := by
  induction cs with
  | nil => simp [admits]
  | cons c cs ih =>
      obtain ⟨lhs, op, rhs⟩ := c
      rw [List.all_cons, ← ih, admits, admits, admits, Bool.and_true]

/-- The meaning that answers plain subqueries by reading them on the database. -/
def Meaning.asking (J : Meaning ν) (db : Contents ν) : Meaning ν where
  holds c x := J.admits db [c] x
  holds_congr := by
    intro c x y h
    have hfound := fun values => c.found?_congr values h
    have hbase := J.holds_congr c x y h
    obtain ⟨lhs, op, rhs⟩ := c
    rw [admits, admits, hfound, hbase]
    rfl

theorem Meaning.asks_asking (J : Meaning ν) (db : Contents ν) : (J.asking db).Asks db := by
  intro outer key sub x hplain hitems
  have hrows := Query.rows_of_joins_eq_nil db (J.asking db) (q := sub)
  obtain ⟨source, items, joins, filters, groupBy, having, orderBy, limit, distinct⟩ := sub
  simp only [Query.isPlainSelection, Bool.and_eq_true, List.isEmpty_iff,
    Option.isNone_iff_eq_none] at hplain
  obtain ⟨⟨⟨⟨⟨rfl, rfl⟩, rfl⟩, -⟩, rfl⟩, -⟩ := hplain
  obtain rfl : items = [.column key] := hitems
  rw [hrows rfl]
  have hall : ∀ y, (filters.all fun c => (J.asking db).holds c y) = J.admits db filters y :=
    fun y => (J.admits_eq_all db filters y).symm
  simp only [hall]
  change J.admits db [_] x = true ↔ _
  simp only [admits, selected?, Condition.found?, Option.getD_some, Bool.and_true,
    Bool.and_eq_true, Option.isSome_iff_exists, decide_eq_true_eq, Multiset.mem_map]
  constructor
  · rintro ⟨⟨v, hv⟩, y, hy, hkey⟩
    exact ⟨v, hv, y, hy, hkey.trans hv⟩
  · rintro ⟨v, hv, y, hy, hkey⟩
    exact ⟨⟨v, hv⟩, y, hy, hkey.trans hv.symm⟩

end Subqueries

end AskSql
