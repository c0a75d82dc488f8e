import AskSql.Schema.Sample
import Mathlib.Data.List.Induction
import Mathlib.Data.List.Nodup

/-!
# What a sample shows

Rows and records are gone through one by one, and a column takes note of each value.  What it is in
the end is told in one step by the list of what was observed: `Sample.columnOf` for the members of
rows (`Sample.shows_foldl`), a fold over the fields in one place for records
(`Sample.getElem?_foldl_observeRecord`).

Every value has a type that is known, and merging known types is a matter of which ones there are
and not of their order (`ColumnType.merge_right_comm`).  So both forms depend on the observations up
to their order alone.
-/

namespace AskSql

open Text

namespace ColumnType

/-- Two types that are known may be merged in either order. -/
theorem merge_right_comm {t a b : ColumnType} (ha : a ≠ unknown) (hb : b ≠ unknown) :
    (t.merge a).merge b = (t.merge b).merge a := by
  revert ha hb
  cases t <;> cases a <;> cases b <;> decide

end ColumnType

namespace Sample

/-! ### Types of values -/

theorem textType_ne_unknown (s : String) : textType s ≠ .unknown := by
  unfold textType
  split
  · decide
  · split
    · decide
    · split
      · decide
      · split
        · split <;> decide
        · decide

/-- The type of a value is known. -/
theorem ne_unknown_of_valueType? {j : Json} {t : ColumnType} (h : valueType? j = some t) :
    t ≠ .unknown := by
  cases j with
  | null => cases h
  | bool =>
      cases h
      decide
  | number n =>
      rw [valueType?] at h
      split at h <;> cases h <;> decide
  | text s =>
      cases h
      exact textType_ne_unknown s
  | array =>
      cases h
      decide
  | object =>
      cases h
      decide

/-! ### Members of rows -/

section Rows

variable {name n : String} {o : Option ColumnType} {os : List (Option ColumnType)}
  {cs cs' : List Column} {c : Column} {ms ms' : List (String × Json)}

/-- The column of a name that is told by what was observed under it. -/
def columnOf (name : String) (os : List (Option ColumnType)) : Column where
  name := name
  type := (os.filterMap id).foldl ColumnType.merge .unknown
  nullable := os.any Option.isNone

/-- The column of a name once more is observed. -/
def noted (name : String) (o : Option ColumnType) : Option Column → Column
  | none => columnOf name [o]
  | some c =>
    match o with
    | some t => { c with type := c.type.merge t }
    | none => { c with nullable := true }

/-- The column of a name among others, if there is one. -/
def found? (name : String) (cs : List Column) : Option Column :=
  cs.find? fun c => c.name == name

theorem found?_cons (n : String) (c : Column) (cs : List Column) :
    found? n (c :: cs) = if c.name = n then some c else found? n cs := by
  rw [found?, List.find?_cons]
  by_cases h : c.name = n
  · rw [beq_iff_eq.2 h, if_pos h]
  · rw [beq_false_of_ne h, if_neg h]
    rfl

theorem observe_nil (name : String) (o : Option ColumnType) :
    observe name o [] = [columnOf name [o]] := by
  cases o <;> rfl

theorem observe_cons (name : String) (o : Option ColumnType) (c : Column) (cs : List Column) :
    observe name o (c :: cs) =
      if c.name = name then noted name o (some c) :: cs else c :: observe name o cs := by
  unfold observe
  by_cases h : c.name = name
  · rw [if_pos (beq_iff_eq.2 h), if_pos h]
    cases o <;> rfl
  · rw [if_neg fun hb => h (beq_iff_eq.1 hb), if_neg h]
    cases cs <;> rfl

theorem name_noted (h : c.name = name) : (noted name o (some c)).name = name := by
  cases o <;> exact h

theorem found?_observe_self (name : String) (o : Option ColumnType) (cs : List Column) :
    found? name (observe name o cs) = some (noted name o (found? name cs)) := by
  induction cs with
  | nil =>
      rw [observe_nil, found?_cons]
      exact if_pos rfl
  | cons c cs ih =>
      rw [observe_cons, found?_cons name c]
      split
      · next hname => rw [found?_cons, if_pos (name_noted hname)]
      · next hname => rw [found?_cons, if_neg hname, ih]

theorem found?_observe_of_ne (h : n ≠ name) (o : Option ColumnType) (cs : List Column) :
    found? n (observe name o cs) = found? n cs := by
  induction cs with
  | nil =>
      rw [observe_nil, found?_cons]
      exact if_neg h.symm
  | cons c cs ih =>
      rw [observe_cons, found?_cons n c]
      split
      · next hname =>
          have hnew : (noted name o (some c)).name ≠ n := name_noted hname ▸ h.symm
          rw [found?_cons, if_neg hnew, hname, if_neg h.symm]
      · rw [found?_cons, ih]

theorem names_observe (name : String) (o : Option ColumnType) (cs : List Column) :
    (observe name o cs).map Column.name =
      if name ∈ cs.map Column.name then cs.map Column.name else cs.map Column.name ++ [name] := by
  induction cs with
  | nil =>
      rw [observe_nil]
      rfl
  | cons c cs ih =>
      rw [observe_cons]
      by_cases hname : c.name = name
      · rw [if_pos hname, List.map_cons, name_noted hname, List.map_cons, hname,
          if_pos List.mem_cons_self]
      · rw [if_neg hname, List.map_cons, ih]
        by_cases hmem : name ∈ cs.map Column.name
        · have hlater : name ∈ (c :: cs).map Column.name := List.mem_cons_of_mem _ hmem
          rw [if_pos hmem, if_pos hlater, List.map_cons]
        · have hnew : name ∉ (c :: cs).map Column.name := fun h =>
            (List.mem_cons.1 h).elim (fun h => hname h.symm) hmem
          rw [if_neg hmem, if_neg hnew, List.map_cons, List.cons_append]

theorem nodup_observe (h : (cs.map Column.name).Nodup) :
    ((observe name o cs).map Column.name).Nodup := by
  rw [names_observe]
  split
  · exact h
  · next hmem =>
      rw [← List.concat_eq_append]
      exact h.concat hmem

/-- What was observed under a name among the members of rows. -/
def seen (name : String) (ms : List (String × Json)) : List (Option ColumnType) :=
  (ms.filter fun m => m.1 == name).map fun m => valueType? m.2

theorem noted_columnOf (name : String) (o : Option ColumnType) (os : List (Option ColumnType)) :
    noted name o (some (columnOf name os)) = columnOf name (os ++ [o]) := by
  cases o <;> simp [noted, columnOf]

/-- The columns are those that the members show, each name once. -/
structure Shows (ms : List (String × Json)) (cs : List Column) : Prop where
  nodup : (cs.map Column.name).Nodup
  found? (n : String) : Sample.found? n cs =
    if seen n ms = [] then none else some (columnOf n (seen n ms))

theorem Shows.observe (h : Shows ms cs) (m : String × Json) :
    Shows (ms ++ [m]) (observe m.1 (valueType? m.2) cs) where
  nodup := nodup_observe h.nodup
  found? n := by
    by_cases hn : n = m.1
    · subst hn
      have hseen : seen m.1 (ms ++ [m]) = seen m.1 ms ++ [valueType? m.2] := by
        simp [seen]
      have hsome : seen m.1 ms ++ [valueType? m.2] ≠ [] := by simp
      rw [found?_observe_self, h.found?, hseen, if_neg hsome]
      split
      · next hnil =>
          rw [hnil]
          rfl
      · rw [noted_columnOf]
    · have hseen : seen n (ms ++ [m]) = seen n ms := by
        simp [seen, Ne.symm hn]
      rw [found?_observe_of_ne hn, h.found?, hseen]

/-- Going through members gives the columns that they show. -/
theorem shows_foldl (ms : List (String × Json)) :
    Shows ms (ms.foldl (fun cs m => observe m.1 (valueType? m.2) cs) []) := by
  induction ms using List.reverseRecOn with
  | nil => exact ⟨List.nodup_nil, fun _ => rfl⟩
  | append_singleton ms m ih =>
      rw [List.foldl_append]
      exact ih.observe m

theorem Shows.mem_iff (h : Shows ms cs) :
    c ∈ cs ↔ seen c.name ms ≠ [] ∧ c = columnOf c.name (seen c.name ms) := by
  have hfound : c ∈ cs ↔ Sample.found? c.name cs = some c := by
    constructor
    · intro hc
      cases hsome : Sample.found? c.name cs with
      | none =>
          have hno := List.find?_eq_none.1 hsome c hc
          simp at hno
      | some d =>
          have hname : d.name = c.name := by simpa using List.find?_some hsome
          rw [List.inj_on_of_nodup_map h.nodup (List.mem_of_find?_eq_some hsome) hc hname]
    · exact List.mem_of_find?_eq_some
  rw [hfound, h.found?]
  split
  · next hnil => simp [hnil]
  · next hne =>
      rw [Option.some_inj, eq_comm]
      exact ⟨fun heq => ⟨hne, heq⟩, And.right⟩

theorem seen_perm (h : ms.Perm ms') (name : String) : (seen name ms).Perm (seen name ms') :=
  (h.filter _).map _

/-- Observations that are put in another order show the same column. -/
theorem columnOf_perm (h : ms.Perm ms') (name : String) :
    columnOf name (seen name ms) = columnOf name (seen name ms') := by
  have hseen := seen_perm h name
  have hknown : ∀ t ∈ (seen name ms).filterMap id, t ≠ .unknown := by
    intro t ht
    obtain ⟨o, ho, rfl⟩ := List.mem_filterMap.1 ht
    obtain ⟨m, -, hm⟩ := List.mem_map.1 ho
    exact ne_unknown_of_valueType? hm
  have htype : ((seen name ms).filterMap id).foldl ColumnType.merge .unknown =
      ((seen name ms').filterMap id).foldl ColumnType.merge .unknown :=
    (hseen.filterMap id).foldl_eq' (fun a ha b hb _ =>
      ColumnType.merge_right_comm (hknown a ha) (hknown b hb)) _
  have hnull : (seen name ms).any Option.isNone = (seen name ms').any Option.isNone :=
    hseen.any_eq
  rw [columnOf, columnOf, htype, hnull]

/-- Members that are put in another order show the same columns, in some order. -/
theorem Shows.perm (h : Shows ms cs) (h' : Shows ms' cs') (hms : ms.Perm ms') : cs.Perm cs' := by
  refine (List.perm_ext_iff_of_nodup (List.Nodup.of_map _ h.nodup)
    (List.Nodup.of_map _ h'.nodup)).2 fun c => ?_
  have hnil : seen c.name ms ≠ [] ↔ seen c.name ms' ≠ [] := by
    rw [← List.length_pos_iff, ← List.length_pos_iff, (seen_perm hms c.name).length_eq]
  rw [h.mem_iff, h'.mem_iff, hnil, columnOf_perm hms]

end Rows

/-! ### Fields of records -/

section Records

variable {os : List Observed} {o : Observed} {records : List (List String)} {i : Nat}

/-- The fields in one place of some records; a record that is too short has none there. -/
def fieldsAt (i : Nat) (records : List (List String)) : List String :=
  records.filterMap fun record => record[i]?

theorem getElem?_observeRecord (os : List Observed) (record : List String) (i : Nat) :
    (observeRecord os record)[i]? =
      os[i]?.map fun o => (record[i]?.map (observeField o)).getD o := by
  induction os generalizing record i with
  | nil => rfl
  | cons o os ih =>
      cases record with
      | nil => simp [observeRecord]
      | cons field record =>
          cases i with
          | zero => rfl
          | succ i => exact ih record i

/-- Each place goes by the fields that stand there. -/
theorem getElem?_foldl_observeRecord (os : List Observed) (records : List (List String)) (i : Nat) :
    (records.foldl observeRecord os)[i]? =
      os[i]?.map fun o => (fieldsAt i records).foldl observeField o := by
  induction records generalizing os with
  | nil => simp [fieldsAt]
  | cons record records ih =>
      rw [List.foldl_cons, ih, getElem?_observeRecord, Option.map_map, fieldsAt, fieldsAt,
        List.filterMap_cons]
      cases record[i]? <;> rfl

/-- The type so far counts as unknown before the first field. -/
theorem observeField_eq (o : Observed) (field : String) :
    observeField o field =
      if isBlankText field then (o.1, true)
      else (some ((o.1.getD .unknown).merge (textType (trim field))), o.2) := by
  unfold observeField
  split
  · rfl
  · generalize textType (trim field) = t
    cases o.1 <;> rfl

theorem observeField_right_comm (o : Observed) (a b : String) :
    observeField (observeField o a) b = observeField (observeField o b) a := by
  simp only [observeField_eq]
  split
  · split <;> rfl
  · split
    · rfl
    · simp only [Option.getD_some]
      rw [ColumnType.merge_right_comm (textType_ne_unknown _) (textType_ne_unknown _)]

/-- A value is missing if it was missing before or a field is blank. -/
theorem missing_foldl_observeField (fields : List String) (o : Observed) :
    (fields.foldl observeField o).2 = (o.2 || fields.any isBlankText) := by
  induction fields generalizing o with
  | nil => simp
  | cons field fields ih =>
      rw [List.foldl_cons, ih, observeField_eq, List.any_cons]
      split <;> simp_all

end Records

end Sample

end AskSql
