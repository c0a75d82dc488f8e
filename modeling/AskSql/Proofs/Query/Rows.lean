import AskSql.Proofs.Query.Scope
import Mathlib.Data.Multiset.Bind

/-!
# The rows of a query

A query reads its rows by taking its tables one after the other.  `Query.rows` says what comes of
this on a database before anything is grouped or selected: the combinations of a row of each table
that pass the joins, the conditions behind them, and the filter.  A row that a left join finds no
match for stays with a row of NULL values.

What the conditions mean is left open: a `Meaning` is any way to tell whether a condition
holds that looks at no other rows than those of the tables that the condition reads.

A query that only has inner joins can be read all at once: its rows are the combinations of all
rows of its tables that pass all of its joins and conditions (`rows_eq_survivors`).
-/

namespace AskSql

/-- A row: the value in each column, by the name of the column in small letters.  A column
without a value is NULL. -/
abbrev Row (ν : Type) := String → Option ν

/-- The rows of each table, by the name of the table in small letters. -/
abbrev Contents (ν : Type) := String → Multiset (Row ν)

/-- A row for each of the tables that are there, by the names of the tables in small letters. -/
abbrev Combination (ν : Type) := String → Option (Row ν)

namespace Combination

variable {ν : Type}

/-- No table is there. -/
def empty : Combination ν :=
  fun _ => none

/-- The combination with a row of one more table. -/
def bring (x : Combination ν) (table : String) (row : Row ν) : Combination ν :=
  Function.update x table (some row)

/-- The value in a column. -/
def value (x : Combination ν) (r : Reference) : Option ν :=
  (x r.tableKey).bind fun row => row (Text.lower r.column)

theorem bring_of_ne (x : Combination ν) {t table : String} (row : Row ν) (h : t ≠ table) :
    x.bring table row t = x t :=
  Function.update_of_ne h _ _

theorem bring_comm (x : Combination ν) {t u : String} (h : t ≠ u) (row row' : Row ν) :
    (x.bring t row).bring u row' = (x.bring u row').bring t row :=
  Function.update_comm h _ _ _

end Combination

/-- What the conditions mean.  Whether one holds depends on the rows of its own tables only. -/
structure Meaning (ν : Type) where
  holds : Condition → Combination ν → Bool
  holds_congr : ∀ (c : Condition) (x y : Combination ν),
    (∀ t ∈ c.tables, x t = y t) → holds c x = holds c y

section Rows

variable {ν : Type} [DecidableEq ν]

/-- The two columns of the join hold the same value.  NULL is not the same as anything. -/
def Join.ties (j : Join) (x : Combination ν) : Bool :=
  match x.value j.left, x.value j.right with
  | some a, some b => a = b
  | _, _ => false

/-- The combination passes the join and the conditions behind it. -/
def Join.accepts (I : Meaning ν) (j : Join) (x : Combination ν) : Bool :=
  j.ties x && j.conditions.all fun c => I.holds c x

/-- The combinations that a join makes of one. -/
def Join.extend (db : Contents ν) (I : Meaning ν) (j : Join) (x : Combination ν) :
    Multiset (Combination ν) :=
  let found := ((db j.right.tableKey).map (x.bring j.right.tableKey)).filter fun y => j.accepts I y
  match j.kind with
  | .inner => found
  | .left => if found.card = 0 then {x.bring j.right.tableKey fun _ => none} else found

/-- Brings in all rows of some tables. -/
def Contents.bringAll (db : Contents ν) (xs : Multiset (Combination ν)) (tables : List String) :
    Multiset (Combination ν) :=
  tables.foldl (fun xs t => xs.bind fun x => (db t).map (x.bring t)) xs

namespace Query

/-- The combinations after the joins. -/
def joinedRows (db : Contents ν) (I : Meaning ν) (q : Query) : Multiset (Combination ν) :=
  q.joins.foldl (fun xs j => xs.bind (j.extend db I)) (db.bringAll {.empty} [Text.lower q.source])

/-- The combinations after the joins and the filter. -/
def rows (db : Contents ν) (I : Meaning ν) (q : Query) : Multiset (Combination ν) :=
  (q.joinedRows db I).filter fun x => q.filters.all fun c => I.holds c x

/-- Of all combinations of rows of the tables, those that pass every join, every condition behind
a join, and the filter.  This is what a query with inner joins reads. -/
def survivors (db : Contents ν) (I : Meaning ν) (q : Query) : Multiset (Combination ν) :=
  (db.bringAll {.empty} q.tableKeys).filter fun x =>
    (q.joins.all fun j => j.accepts I x) && q.filters.all fun c => I.holds c x

end Query

/-! ### Tables in any order -/

omit [DecidableEq ν] in
theorem Contents.bringAll_append (db : Contents ν) (xs : Multiset (Combination ν))
    (ts us : List String) : db.bringAll xs (ts ++ us) = db.bringAll (db.bringAll xs ts) us := by
  simp [bringAll]

omit [DecidableEq ν] in
/-- It does not matter in which order the tables are brought in. -/
theorem Contents.bringAll_perm (db : Contents ν) (xs : Multiset (Combination ν))
    {ts us : List String} (h : ts.Perm us) : db.bringAll xs ts = db.bringAll xs us := by
  have hcomm : RightCommutative
      fun (xs : Multiset (Combination ν)) t => xs.bind fun x => (db t).map (x.bring t) := by
    constructor
    intro xs t u
    by_cases htu : t = u
    · rw [htu]
    · rw [Multiset.bind_assoc, Multiset.bind_assoc]
      apply Multiset.bind_congr
      intro x _
      rw [Multiset.bind_map, Multiset.bind_map, Multiset.bind_map_comm]
      apply Multiset.bind_congr
      intro row _
      apply Multiset.map_congr rfl
      intro row' _
      exact x.bring_comm htu row' row
  exact h.foldl_eq xs

/-! ### Joins step by step -/

omit [DecidableEq ν] in
/-- Conditions look at the rows of the tables that they mention only. -/
theorem Meaning.all_holds_congr (I : Meaning ν) {cs : List Condition} {x y : Combination ν}
    (h : ∀ c ∈ cs, ∀ r ∈ c.references, x r.tableKey = y r.tableKey) :
    (cs.all fun c => I.holds c x) = cs.all fun c => I.holds c y := by
  rw [Bool.eq_iff_iff, List.all_eq_true, List.all_eq_true]
  apply forall₂_congr
  intro c hc
  rw [I.holds_congr c x y]
  intro t ht
  obtain ⟨r, hr, rfl⟩ := Condition.mem_tables.1 ht
  exact h c hc r hr

/-- The join looks at the rows of its own tables only. -/
theorem Join.accepts_congr (I : Meaning ν) (j : Join) {scope : List String}
    (hleft : j.left.tableKey ∈ scope) (hright : j.right.tableKey ∈ scope)
    (hon : ∀ c ∈ j.conditions, ∀ r ∈ c.references, r.tableKey ∈ scope) {x y : Combination ν}
    (h : ∀ t ∈ scope, x t = y t) : j.accepts I x = j.accepts I y := by
  have hties : j.ties x = j.ties y := by
    simp only [ties, Combination.value, h _ hleft, h _ hright]
  have hall : (j.conditions.all fun c => I.holds c x) = j.conditions.all fun c => I.holds c y :=
    I.all_holds_congr fun c hc r hr => h _ (hon c hc r hr)
  rw [accepts, accepts, hties, hall]

/-- Whether the rows match or not, a join brings in its own table and changes no other. -/
theorem Join.exists_bring_of_mem_extend (db : Contents ν) (I : Meaning ν) {j : Join}
    {x y : Combination ν} (h : y ∈ j.extend db I x) : ∃ row, y = x.bring j.right.tableKey row := by
  have hfound : ∀ y ∈ ((db j.right.tableKey).map (x.bring j.right.tableKey)).filter
      (fun y => j.accepts I y), ∃ row, y = x.bring j.right.tableKey row := by
    intro y hy
    obtain ⟨row, -, rfl⟩ := Multiset.mem_map.1 (Multiset.mem_filter.1 hy).1
    exact ⟨row, rfl⟩
  unfold extend at h
  cases hkind : j.kind with
  | inner =>
      rw [hkind] at h
      exact hfound y h
  | left =>
      simp only [hkind] at h
      split at h
      · exact ⟨_, Multiset.mem_singleton.1 h⟩
      · exact hfound y h

/-- A test that does not look at the table of a join may be made before the join or after it. -/
theorem Join.bind_extend_of_unread (db : Contents ν) (I : Meaning ν) {j : Join}
    {p : Combination ν → Bool}
    (hp : ∀ (x : Combination ν) row, p (x.bring j.right.tableKey row) = p x)
    (xs : Multiset (Combination ν)) :
    (xs.filter fun x => p x).bind (j.extend db I) =
      (xs.bind (j.extend db I)).filter fun y => p y := by
  have hsame : ∀ x, ∀ y ∈ j.extend db I x, p y = p x := by
    intro x y hy
    obtain ⟨row, rfl⟩ := j.exists_bring_of_mem_extend db I hy
    exact hp x row
  rw [Multiset.filter_bind]
  -- along the combinations, where one that is left out brings nothing in
  induction xs using Multiset.induction with
  | empty => simp
  | cons x xs ih =>
      rw [Multiset.cons_bind, ← ih]
      by_cases hx : p x = true
      · have hall : (j.extend db I x).filter (fun y => p y) = j.extend db I x := by
          rw [Multiset.filter_eq_self]
          exact fun y hy => (hsame x y hy).trans hx
        rw [Multiset.filter_cons_of_pos xs hx, Multiset.cons_bind, hall]
      · have hnone : (j.extend db I x).filter (fun y => p y) = 0 := by
          rw [Multiset.filter_eq_nil]
          exact fun y hy hy' => hx ((hsame x y hy).symm.trans hy')
        rw [Multiset.filter_cons_of_neg xs hx, hnone, zero_add]

/-- What was tested before an inner join may as well be tested after it. -/
theorem Join.bind_extend_filter (db : Contents ν) (I : Meaning ν) {j : Join}
    (hinner : j.kind = .inner) {p : Combination ν → Bool}
    (hp : ∀ (x : Combination ν) row, p (x.bring j.right.tableKey row) = p x)
    (xs : Multiset (Combination ν)) :
    (xs.filter fun x => p x).bind (j.extend db I) =
      (db.bringAll xs [j.right.tableKey]).filter fun x => p x && j.accepts I x := by
  have hall : xs.bind (j.extend db I) =
      (db.bringAll xs [j.right.tableKey]).filter fun x => j.accepts I x := by
    rw [Contents.bringAll, List.foldl_cons, List.foldl_nil, Multiset.filter_bind]
    apply Multiset.bind_congr
    intro x _
    rw [extend, hinner]
  rw [bind_extend_of_unread db I hp, hall, Multiset.filter_filter]
  apply Multiset.filter_congr
  intro x _
  rw [Bool.and_eq_true]

/-- Joining tables one after the other gives those combinations of all their rows that pass all of
the joins.  Each join brings in a table that is not there and looks at no table that comes later,
so the tests of the earlier joins, which `p` collects, keep their outcome. -/
theorem Join.foldl_extend (db : Contents ν) (I : Meaning ν) (js : List Join)
    (hinner : ∀ j ∈ js, j.kind = .inner) (scope : List String)
    (hscope : ∀ i j, js[i]? = some j →
      j.left.tableKey ∈ scope ++ (js.take i).map (fun j => j.right.tableKey) ∧
        j.right.tableKey ∉ scope ++ (js.take i).map (fun j => j.right.tableKey) ∧
          ∀ c ∈ j.conditions, ∀ r ∈ c.references,
            r.tableKey ∈ scope ++ (js.take (i + 1)).map fun j => j.right.tableKey)
    (p : Combination ν → Bool) (hp : ∀ x y, (∀ t ∈ scope, x t = y t) → p x = p y)
    (xs : Multiset (Combination ν)) :
    js.foldl (fun xs j => xs.bind (j.extend db I)) (xs.filter fun x => p x) =
      (db.bringAll xs (js.map fun j => j.right.tableKey)).filter fun x =>
        p x && js.all fun j => j.accepts I x := by
  induction js generalizing scope p xs with
  | nil => simp [Contents.bringAll]
  | cons j js ih =>
      obtain ⟨hleft, hnew, hon⟩ := hscope 0 j rfl
      simp only [List.take_zero, List.map_nil, List.append_nil, List.take_succ_cons,
        List.map_cons] at hleft hnew hon
      -- the tests so far look at no row of the table that this join brings in
      have hbring : ∀ (x : Combination ν) row, p (x.bring j.right.tableKey row) = p x := by
        intro x row
        apply hp
        intro t ht
        apply x.bring_of_ne
        rintro rfl
        exact hnew ht
      have hp' : ∀ x y : Combination ν, (∀ t ∈ scope ++ [j.right.tableKey], x t = y t) →
          (p x && j.accepts I x) = (p y && j.accepts I y) := by
        intro x y h
        have hearlier : p x = p y := hp x y fun t ht => h t (List.mem_append_left _ ht)
        have hjoin : j.accepts I x = j.accepts I y :=
          j.accepts_congr I (List.mem_append_left _ hleft) (by simp) hon h
        rw [hearlier, hjoin]
      have hrest := ih (fun j' hj' => hinner j' (List.mem_cons_of_mem _ hj'))
        (scope ++ [j.right.tableKey])
        (fun i j' hj' => by simpa using hscope (i + 1) j' (by simpa using hj'))
        (fun x => p x && j.accepts I x) hp' (db.bringAll xs [j.right.tableKey])
      rw [List.foldl_cons, bind_extend_filter db I (hinner j List.mem_cons_self) hbring, hrest,
        ← Contents.bringAll_append]
      simp only [List.map_cons, List.singleton_append, List.all_cons, Bool.and_assoc]

/-- A query with inner joins, whose conditions behind joins mention no table that comes later,
reads the combinations of all rows of its tables that pass all of its joins and conditions. -/
theorem Query.rows_eq_survivors (db : Contents ν) (I : Meaning ν) {q : Query}
    (hinner : ∀ j ∈ q.joins, j.kind = .inner)
    (hleft : ∀ i j, q.joins[i]? = some j → j.left.tableKey ∈ q.scopeAfter i)
    (hright : ∀ i j, q.joins[i]? = some j → j.right.tableKey ∉ q.scopeAfter i)
    (hon : q.OnScoped) : q.rows db I = q.survivors db I := by
  have hjoins := Join.foldl_extend db I q.joins hinner [Text.lower q.source]
    (fun i j hj => ⟨hleft i j hj, hright i j hj, hon i j hj⟩) (fun _ => true)
    (fun _ _ _ => rfl) (db.bringAll {.empty} [Text.lower q.source])
  simp only [Multiset.filter_true, Bool.true_and, ← Contents.bringAll_append] at hjoins
  have htables : [Text.lower q.source] ++ q.joins.map (fun j => j.right.tableKey) =
      q.tableKeys := by
    rw [← scopeAfter_length, scopeAfter, List.take_length, List.singleton_append]
  rw [htables] at hjoins
  rw [rows, joinedRows, hjoins, survivors, Multiset.filter_filter]
  apply Multiset.filter_congr
  intro x _
  rw [Bool.and_eq_true, and_comm]

end Rows

end AskSql
