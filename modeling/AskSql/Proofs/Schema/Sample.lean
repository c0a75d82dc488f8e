import AskSql.Proofs.Schema.Observation

/-!
# Tables from samples, whatever the order

The table of some rows or records has the columns that the sample shows
(`Sample.tableOfRows_eq`, `Sample.tableOfRecords_eq`).  Where all of them are looked at, their order
plays no part, but for the order of the columns of rows, which is that in which the names come up
(`Sample.sameTable_of_perm`).

A column that takes no null values was never seen without one (`Sample.notNull_shown`): no row has
null under its name, and no record has a blank field in its place.  The key of records is apart; it
takes no null values whatever the sample shows.
-/

namespace AskSql.Sample

open Text

/-! ### Rows -/

section Rows

variable {name : String} {rows rows' : List Json} {t : Table} {c : Column}

/-- The value is an object. -/
def isObject : Json → Bool
  | .object _ => true
  | _ => false

/-- The members of a row; what is no object has none. -/
def membersOf : Json → List (String × Json)
  | .object ms => ms
  | _ => []

/-- The columns that some rows show. -/
def columnsOfRows (rows : List Json) : List Column :=
  (rows.flatMap membersOf).foldl (fun cs m => observe m.1 (valueType? m.2) cs) []

theorem mapM_members {f : Json → Except Failure (List (String × Json))} {e : Failure}
    (hobject : ∀ ms, f (.object ms) = .ok ms) (hother : ∀ j, isObject j = false → f j = .error e)
    (rows : List Json) :
    rows.mapM f = if rows.all isObject then .ok (rows.map membersOf) else .error e := by
  induction rows with
  | nil => rfl
  | cons row rows ih =>
      rw [List.mapM_cons, ih, List.all_cons]
      cases hrow : isObject row with
      | false =>
          rw [hother row hrow]
          rfl
      | true =>
          have hok : f row = .ok (membersOf row) := by
            cases row with
            | object ms => exact hobject ms
            | _ => cases hrow
          rw [hok, Bool.true_and]
          split <;> rfl

/-- The table of rows, if all that are looked at are objects and one of them has a member. -/
theorem tableOfRows_eq (name : String) (rows : List Json) :
    tableOfRows name rows =
      if (rows.take sampleSize).all isObject then
        if (columnsOfRows (rows.take sampleSize)).isEmpty then
          .error (.malformedIn "json" s!"no rows to infer '{name}' from")
        else
          .ok { name, columns := (columnsOfRows (rows.take sampleSize)).map markKey,
                rowCount := some rows.length }
      else .error (notObjects name) := by
  have hcolumns : ((rows.take sampleSize).map membersOf).foldl observeRow [] =
      columnsOfRows (rows.take sampleSize) := by
    rw [columnsOfRows, List.foldl_flatMap, List.foldl_map]
    rfl
  unfold tableOfRows
  rw [mapM_members (e := notObjects name) (fun _ => rfl), ← hcolumns]
  · split <;> rfl
  · intro j hj
    cases j with
    | object => cases hj
    | _ => rfl

/-- The same failure, or the same table but for the order of its columns. -/
inductive SameTable : Except Failure Table → Except Failure Table → Prop
  | failure (e : Failure) : SameTable (.error e) (.error e)
  | table {t : Table} {columns : List Column} (h : t.columns.Perm columns) :
      SameTable (.ok t) (.ok { t with columns })

theorem columnsOfRows_perm (h : rows.Perm rows') :
    (columnsOfRows rows).Perm (columnsOfRows rows') :=
  (shows_foldl _).perm (shows_foldl _) (h.flatMap_right membersOf)

theorem sameTable_tableOfRows (name : String) (h : rows.Perm rows')
    (hsize : rows.length ≤ sampleSize) :
    SameTable (tableOfRows name rows) (tableOfRows name rows') := by
  have hcolumns := columnsOfRows_perm h
  rw [tableOfRows_eq, tableOfRows_eq, List.take_of_length_le hsize,
    List.take_of_length_le (h.length_eq ▸ hsize), ← h.all_eq, ← h.length_eq,
    ← hcolumns.isEmpty_eq]
  split
  · split
    · exact .failure _
    · exact .table (hcolumns.map markKey)
  · exact .failure _

/-- The columns of a table are those that the sample shows, the key marked. -/
theorem exists_columnOf (h : tableOfRows name rows = .ok t) (hc : c ∈ t.columns) :
    ∃ n, c = markKey (columnOf n (seen n ((rows.take sampleSize).flatMap membersOf))) := by
  rw [tableOfRows_eq] at h
  split at h
  · split at h
    · cases h
    · cases h
      obtain ⟨d, hd, rfl⟩ := List.mem_map.1 hc
      exact ⟨d.name, congrArg markKey ((shows_foldl _).mem_iff.1 hd).2⟩
  · cases h

theorem name_markKey (c : Column) : (markKey c).name = c.name := by
  unfold markKey
  split <;> rfl

theorem nullable_markKey (c : Column) : (markKey c).nullable = c.nullable := by
  unfold markKey
  split <;> rfl

/-- No row has null under the name of a column without null values. -/
theorem ne_null_of_not_nullable (h : tableOfRows name rows = .ok t) (hc : c ∈ t.columns)
    (hnull : c.nullable = false) {row : Json} (hrow : row ∈ rows.take sampleSize) {v : Json}
    (hv : (c.name, v) ∈ membersOf row) : v ≠ .null := by
  rintro rfl
  obtain ⟨n, rfl⟩ := exists_columnOf h hc
  rw [name_markKey] at hv
  rw [nullable_markKey] at hnull
  have hseen : none ∈ seen n ((rows.take sampleSize).flatMap membersOf) :=
    List.mem_map.2 ⟨(n, .null),
      List.mem_filter.2 ⟨List.mem_flatMap.2 ⟨row, hrow, hv⟩, beq_iff_eq.2 rfl⟩, rfl⟩
  have hknown := List.any_eq_false.1 hnull none hseen
  exact hknown rfl

end Rows

/-! ### Records -/

section Records

variable {name text text' : String} {header : List String}
  {records records' : List (List String)} {t : Table}

/-- What the fields in one place show. -/
def observedAt (i : Nat) (records : List (List String)) : Observed :=
  (fieldsAt i records).foldl observeField (none, false)

/-- The columns that some records show, one for each name in the header. -/
def columnsOfRecords (header : List String) (records : List (List String)) : List Column :=
  header.zipIdx.filterMap fun h =>
    columnOf? records.isEmpty h.1 (observedAt h.2 (records.take sampleSize))

theorem zip_foldl_observeRecord (header : List String) (records : List (List String)) :
    header.zip (records.foldl observeRecord (header.map fun _ => (none, false))) =
      header.zipIdx.map fun h => (h.1, observedAt h.2 records) := by
  have hobserved : records.foldl observeRecord (header.map fun _ => (none, false)) =
      header.zipIdx.map fun h => observedAt h.2 records := by
    refine List.ext_getElem? fun i => ?_
    rw [getElem?_foldl_observeRecord, List.getElem?_map, List.getElem?_map, List.getElem?_zipIdx,
      Option.map_map, Option.map_map]
    simp [Function.comp_def, observedAt]
  have hzip : (header.zipIdx.map Prod.fst).zip (header.zipIdx.map fun h => observedAt h.2 records) =
      header.zipIdx.map fun h => (h.1, observedAt h.2 records) := List.zip_map'
  rwa [List.zipIdx_map_fst, ← hobserved] at hzip

/-- The table of records, if the header has a name. -/
theorem tableOfRecords_eq (name : String) (h : Csv.records text = header :: records) :
    tableOfRecords name text =
      if header.all isBlankText then .error (.malformedIn "csv" "CSV has no header row")
      else
        .ok { name, columns := columnsOfRecords header records,
              rowCount := some records.length } := by
  have hcolumns : (header.zip ((records.take sampleSize).foldl observeRecord
      (header.map fun _ => (none, false)))).filterMap (fun p => columnOf? records.isEmpty p.1 p.2) =
        columnsOfRecords header records := by
    simp only [zip_foldl_observeRecord, List.filterMap_map, Function.comp_def, columnsOfRecords]
  unfold tableOfRecords
  rw [h, ← hcolumns]
  cases hblank : header.all isBlankText
  · simp only [hblank, Bool.false_eq_true, if_false]
    rfl
  · simp only [hblank, if_true]
    rfl

theorem columnsOfRecords_perm (header : List String) (h : records.Perm records')
    (hsize : records.length ≤ sampleSize) :
    columnsOfRecords header records = columnsOfRecords header records' := by
  have hobserved (i : Nat) : observedAt i records = observedAt i records' :=
    (h.filterMap _).foldl_eq' (fun a _ b _ o => observeField_right_comm o a b) _
  rw [columnsOfRecords, columnsOfRecords, List.take_of_length_le hsize,
    List.take_of_length_le (h.length_eq ▸ hsize), h.isEmpty_eq]
  simp only [hobserved]

/-- The names in a header that are not blank, with their places. -/
def places (header : List String) : List (String × Nat) :=
  header.zipIdx.filter fun h => !(trim h.1).isEmpty

theorem columnOf?_eq_none {noRows : Bool} {h : String} {o : Observed}
    (hblank : (trim h).isEmpty = true) : columnOf? noRows h o = none := by
  simp only [columnOf?, hblank, if_true]

/-- The key takes no null values, and another column does if a value was missing. -/
theorem exists_columnOf? (noRows : Bool) {h : String} (o : Observed)
    (hname : (trim h).isEmpty = false) :
    ∃ c, columnOf? noRows h o = some c ∧ c.name = trim h ∧
      (sameFold c.name "id" = true → c.primaryKey = true ∧ c.nullable = false) ∧
      (sameFold c.name "id" = false → c.nullable = false → o.2 = false) := by
  simp only [columnOf?, hname, Bool.false_eq_true, if_false]
  refine ⟨_, rfl, ?_⟩
  split
  · next hkey =>
      exact ⟨rfl, fun _ => ⟨rfl, rfl⟩, fun hother => absurd (hkey.symm.trans hother) (by decide)⟩
  · next hother =>
      exact ⟨rfl, fun hkey => absurd hkey hother, fun _ hnull => (Bool.or_eq_false_iff.1 hnull).1⟩

/-- The column in a place of some records.  The key takes no null values by itself; where another
column takes none, no record has a blank field in its place. -/
structure Fills (records : List (List String)) (place : String × Nat) (c : Column) : Prop where
  name : c.name = trim place.1
  key : sameFold c.name "id" = true → c.primaryKey = true ∧ c.nullable = false
  filled : sameFold c.name "id" = false → c.nullable = false →
    ∀ record ∈ records, ∀ field, record[place.2]? = some field → isBlankText field = false

/-- Where no value is missing, no field is blank. -/
theorem isBlankText_of_observedAt {i : Nat} (h : (observedAt i records).2 = false)
    {record : List String} (hrecord : record ∈ records) {field : String}
    (hfield : record[i]? = some field) : isBlankText field = false := by
  rw [observedAt, missing_foldl_observeField, Bool.false_or] at h
  have hmem : field ∈ fieldsAt i records := List.mem_filterMap.2 ⟨record, hrecord, hfield⟩
  exact Bool.eq_false_iff.2 (List.any_eq_false.1 h field hmem)

theorem forall₂_filter_filterMap {α β : Type} {R : α → β → Prop} {p : α → Bool}
    {f : α → Option β} {xs : List α} (hnone : ∀ x ∈ xs, p x = false → f x = none)
    (hsome : ∀ x ∈ xs, p x = true → ∃ y, f x = some y ∧ R x y) :
    List.Forall₂ R (xs.filter p) (xs.filterMap f) := by
  induction xs with
  | nil => exact .nil
  | cons x xs ih =>
      have hrest := ih (fun y hy => hnone y (List.mem_cons_of_mem x hy)) fun y hy =>
        hsome y (List.mem_cons_of_mem x hy)
      cases hx : p x with
      | false =>
          rw [List.filter_cons_of_neg (by simp [hx]),
            List.filterMap_cons_none (hnone x List.mem_cons_self hx)]
          exact hrest
      | true =>
          obtain ⟨y, hy, hr⟩ := hsome x List.mem_cons_self hx
          rw [List.filter_cons_of_pos hx, List.filterMap_cons_some hy]
          exact .cons hr hrest

/-- The columns are those of the names in the header that are not blank, in their order. -/
theorem forall₂_fills (header : List String) (records : List (List String)) :
    List.Forall₂ (Fills (records.take sampleSize)) (places header)
      (columnsOfRecords header records) := by
  refine forall₂_filter_filterMap (fun place _ hblank => columnOf?_eq_none (by simpa using hblank))
    fun place _ hname => ?_
  obtain ⟨c, hc, hcname, hkey, hmissing⟩ := exists_columnOf? records.isEmpty
    (observedAt place.2 (records.take sampleSize)) (by simpa using hname)
  exact ⟨c, hc, hcname, hkey, fun hother hnull record hrecord field hfield =>
    isBlankText_of_observedAt (hmissing hother hnull) hrecord hfield⟩

end Records

/-! ### Order and null values -/

/-- Rows and records that are all looked at give the same table in any order, but for the order of
the columns of rows. -/
theorem sameTable_of_perm :
    (∀ (name : String) (rows rows' : List Json), rows.Perm rows' → rows.length ≤ sampleSize →
      SameTable (tableOfRows name rows) (tableOfRows name rows')) ∧
    ∀ (name text text' : String) (header : List String) (records records' : List (List String)),
      Csv.records text = header :: records → Csv.records text' = header :: records' →
      records.Perm records' → records.length ≤ sampleSize →
      tableOfRecords name text = tableOfRecords name text' := by
  refine ⟨fun name _ _ h hsize => sameTable_tableOfRows name h hsize, ?_⟩
  intro name text text' header records records' htext htext' h hsize
  rw [tableOfRecords_eq name htext, tableOfRecords_eq name htext',
    columnsOfRecords_perm header h hsize, h.length_eq]

/-- Two orders, the second without a total and with a note. -/
def orderRows : List Json :=
  [.object [("id", .nat 1), ("total", .float 2.5)],
    .object [("note", .text "2024-01-05"), ("id", .nat 2), ("total", .null)]]

/-- The two orders, and the second one before the first. -/
theorem sameTable_of_perm_orders :
    orderRows.Perm orderRows.reverse ∧ orderRows.length ≤ sampleSize ∧
      SameTable (tableOfRows "orders" orderRows) (tableOfRows "orders" orderRows.reverse) ∧
      Csv.records "id,total\n1,2\n2,2.5" = [["id", "total"], ["1", "2"], ["2", "2.5"]] ∧
      Csv.records "id,total\n2,2.5\n1,2" = [["id", "total"], ["2", "2.5"], ["1", "2"]] ∧
      tableOfRecords "orders" "id,total\n1,2\n2,2.5" =
        tableOfRecords "orders" "id,total\n2,2.5\n1,2" := by
  have hperm : orderRows.Perm orderRows.reverse := (List.reverse_perm orderRows).symm
  have hsize : orderRows.length ≤ sampleSize := by decide
  have hfirst : Csv.records "id,total\n1,2\n2,2.5" =
    [["id", "total"], ["1", "2"], ["2", "2.5"]] := by decide +kernel
  have hsecond : Csv.records "id,total\n2,2.5\n1,2" =
    [["id", "total"], ["2", "2.5"], ["1", "2"]] := by decide +kernel
  exact ⟨hperm, hsize, sameTable_of_perm.1 "orders" _ _ hperm hsize, hfirst, hsecond,
    sameTable_of_perm.2 "orders" _ _ _ _ _ hfirst hsecond (.swap _ _ _) (by decide)⟩

/-- A column that takes no null values was nowhere seen to be null: no row that is looked at has
null under its name, and no record that is looked at has a blank field in its place, unless it is
the key of the records. -/
theorem notNull_shown :
    (∀ (name : String) (rows : List Json) (t : Table), tableOfRows name rows = .ok t →
      ∀ c ∈ t.columns, c.nullable = false →
        ∀ row ∈ rows.take sampleSize, ∀ v, (c.name, v) ∈ membersOf row → v ≠ .null) ∧
    ∀ (name text : String) (header : List String) (records : List (List String)) (t : Table),
      Csv.records text = header :: records → tableOfRecords name text = .ok t →
        List.Forall₂ (Fills (records.take sampleSize)) (places header) t.columns := by
  refine ⟨fun _ _ _ h c hc hnull row hrow v => ne_null_of_not_nullable h hc hnull hrow, ?_⟩
  intro name text header records t htext h
  rw [tableOfRecords_eq name htext] at h
  split at h
  · cases h
  · cases h
    exact forall₂_fills header records

/-- The notes of the two orders. -/
def noteColumn : Column where
  name := "note"
  type := .date
  nullable := false

/-- The table of the two orders. -/
def orderTable : Table where
  name := "orders"
  columns :=
    [{ name := "id", type := .integer, nullable := false, primaryKey := true, indexed := true },
      { name := "total", type := .float }, noteColumn]
  rowCount := some 2

/-- Two users, the second without a number and a town. -/
def userRecords : List (List String) :=
  [["1", "Ann", "Rome"], ["", "Bob"]]

/-- The table of the two users. -/
def userTable : Table where
  name := "users"
  columns :=
    [{ name := "id", type := .integer, nullable := false, primaryKey := true, indexed := true },
      { name := "name", type := .text, nullable := false },
      { name := "town", type := .text, nullable := false }]
  rowCount := some 2

theorem tableOfRows_orderRows : tableOfRows "orders" orderRows = .ok orderTable := by
  decide +kernel

theorem records_users :
    Csv.records "id,name,town\n1,Ann,Rome\n,Bob" = ["id", "name", "town"] :: userRecords := by
  decide +kernel

theorem tableOfRecords_users :
    tableOfRecords "users" "id,name,town\n1,Ann,Rome\n,Bob" = .ok userTable := by
  decide +kernel

/-- The note that there is is not null, and the fields that there are in the place of the town are
not blank. -/
theorem notNull_shown_orders :
    noteColumn ∈ orderTable.columns ∧ noteColumn.nullable = false ∧
      (∀ row ∈ orderRows.take sampleSize, ∀ v, ("note", v) ∈ membersOf row → v ≠ .null) ∧
      List.Forall₂ (Fills (userRecords.take sampleSize)) (places ["id", "name", "town"])
        userTable.columns := by
  have hmem : noteColumn ∈ orderTable.columns := by decide
  exact ⟨hmem, rfl, notNull_shown.1 "orders" orderRows orderTable tableOfRows_orderRows noteColumn
    hmem rfl, notNull_shown.2 "users" _ _ _ _ records_users tableOfRecords_users⟩

/-- The first order has no note, though notes take no null values.  The second user has a blank in
place of a number, and nothing in place of a town, though neither takes null values. -/
theorem notNull_unseen :
    (tableOfRows "orders" orderRows = .ok orderTable ∧ noteColumn ∈ orderTable.columns ∧
      noteColumn.nullable = false ∧ ∃ row ∈ orderRows, ∀ v, ("note", v) ∉ membersOf row) ∧
    Csv.records "id,name,town\n1,Ann,Rome\n,Bob" = ["id", "name", "town"] :: userRecords ∧
      tableOfRecords "users" "id,name,town\n1,Ann,Rome\n,Bob" = .ok userTable ∧
      (∀ c ∈ userTable.columns, c.nullable = false) ∧
      ∃ record ∈ userRecords, record[0]? = some "" ∧ record[2]? = none := by
  refine ⟨⟨tableOfRows_orderRows, by decide, rfl, _, List.mem_cons_self, fun v hv => ?_⟩,
    records_users, tableOfRecords_users, by decide, ["", "Bob"], by decide, by decide, by decide⟩
  simp [membersOf] at hv

end AskSql.Sample
