import AskSql.Proofs.Schema.Declared
import AskSql.Proofs.Schema.Inflection

/-!
# Suggested relationships

The name of a column suggests a relationship if it speaks of the key of another table of the schema
(`Schema.Suggests`).  To infer relationships is to add what the names of all columns suggest, one
after the other: what is there stays in front, what is added was suggested
(`Schema.exists_foldl_insertRelationship`), and to add it again changes nothing, as its key is there
(`Schema.foldl_insertRelationship_eq_self`).
-/

namespace AskSql

namespace Name

variable {w e stem : String}

/-- A name that ends so is what stands before its end and this end. -/
theorem endsIn_and_dropEnd_eq_iff :
    endsIn w e = true ∧ dropEnd w e.toList.length = stem ↔ w = stem ++ e := by
  rw [endsIn, List.isSuffixOf_iff_suffix]
  constructor
  · rintro ⟨⟨front, hfront⟩, rfl⟩
    rw [← String.toList_inj, String.toList_append, toList_dropEnd, ← hfront, List.length_append,
      Nat.add_sub_cancel, List.take_left]
  · rintro rfl
    refine ⟨⟨stem.toList, (String.toList_append ..).symm⟩, ?_⟩
    rw [← String.toList_inj, toList_dropEnd, String.toList_append, List.length_append,
      Nat.add_sub_cancel, List.take_left]

end Name

namespace Schema

theorem keyStem?_eq_some_iff {name stem : String} :
    keyStem? name = some stem ↔ stem ≠ "" ∧ Name.normalize name = stem ++ "_id" := by
  have hnamed : Name.normalize name = stem ++ "_id" →
      (Name.normalize name ≠ "_id" ↔ stem ≠ "") := by
    intro h
    rw [h, not_iff_not]
    exact String.append_eq_right_iff
  rw [keyStem?, Option.ite_none_right_eq_some, Option.some_inj, Bool.and_eq_true, bne_iff_ne,
    and_right_comm]
  rw [show (3 : Nat) = "_id".toList.length from rfl, Name.endsIn_and_dropEnd_eq_iff, and_comm]
  exact and_congr_left hnamed

/-! ### Adding again -/

section Adding

variable {rs ds : List Relationship}

/-- What is there stays in front, and some of what is to be added comes behind it. -/
theorem exists_foldl_insertRelationship (rs ds : List Relationship) :
    ∃ added, ds.foldl insertRelationship rs = rs ++ added ∧ added.Sublist ds := by
  induction ds generalizing rs with
  | nil => exact ⟨[], (List.append_nil rs).symm, .slnil⟩
  | cons d ds ih =>
      rw [List.foldl_cons, insertRelationship]
      split
      · obtain ⟨added, hadded, hsub⟩ := ih rs
        exact ⟨added, hadded, hsub.cons d⟩
      · obtain ⟨added, hadded, hsub⟩ := ih (rs ++ [d])
        exact ⟨d :: added, hadded.trans (List.append_assoc rs [d] added), hsub.cons_cons d⟩

/-- Nothing is added where all keys are there. -/
theorem foldl_insertRelationship_eq_self
    (h : ∀ d ∈ ds, d.key ∈ rs.map Relationship.key) : ds.foldl insertRelationship rs = rs := by
  induction ds with
  | nil => rfl
  | cons d ds ih =>
      rw [List.foldl_cons, insertRelationship, if_pos (any_sameEnds_iff.2 (h d List.mem_cons_self))]
      exact ih fun d' hd' => h d' (List.mem_cons_of_mem d hd')

theorem foldl_insertRelationship_again (rs ds : List Relationship) :
    ds.foldl insertRelationship (ds.foldl insertRelationship rs) =
      ds.foldl insertRelationship rs :=
  foldl_insertRelationship_eq_self fun _ hd =>
    mem_keys_foldl_insertRelationship.2 (.inr (List.mem_map_of_mem hd))

end Adding

/-! ### What names suggest -/

/-- The name of the column `c` of the table `t` is that of another table `u`, as far as names are
tolerated, with `_id` behind it, and `key` is the primary key of that table. -/
structure Suggests (s : Schema) (t : Table) (c : Column) (u : Table) (key : Column) : Prop where
  table_mem : t ∈ s.tables
  column_mem : c ∈ t.columns
  named : ∃ stem, stem ≠ "" ∧ Name.normalize c.name = stem ++ "_id" ∧ s.findTable? stem = some u
  other : sameName u.name t.name = false
  primaryKey : u.primaryKey? = some key

/-- The relationship of a column to a key of another table. -/
def keyRelationship (t : Table) (c : Column) (u : Table) (key : Column) : Relationship :=
  { source := ⟨t.name, c.name⟩, target := ⟨u.name, key.name⟩, cardinality := .manyToOne }

variable {s : Schema} {t u : Table} {c key : Column} {r : Relationship}

theorem suggested?_eq_some_iff :
    s.suggested? t c = some r ↔
      ∃ stem, keyStem? c.name = some stem ∧ ∃ u, s.findTable? stem = some u ∧
        sameName u.name t.name = false ∧ ∃ key, u.primaryKey? = some key ∧
          r = keyRelationship t c u key := by
  rw [suggested?, Option.bind_eq_bind, Option.bind_eq_some_iff]
  refine exists_congr fun stem => and_congr_right fun _ => ?_
  rw [Option.bind_eq_bind, Option.bind_eq_some_iff]
  refine exists_congr fun u => and_congr_right fun _ => ?_
  rw [Option.ite_none_left_eq_some, Bool.not_eq_true, Option.bind_eq_bind, Option.bind_eq_some_iff]
  refine and_congr_right fun _ => exists_congr fun key => and_congr_right fun _ => ?_
  exact Option.some_inj.trans eq_comm

theorem mem_suggestedRelationships :
    r ∈ s.suggestedRelationships ↔ ∃ t c u key, s.Suggests t c u key ∧
      r = keyRelationship t c u key := by
  simp only [suggestedRelationships, List.mem_flatMap, List.mem_filterMap, suggested?_eq_some_iff,
    keyStem?_eq_some_iff]
  constructor
  · rintro ⟨t, ht, c, hc, stem, ⟨hstem, hname⟩, u, hu, hother, key, hkey, rfl⟩
    exact ⟨t, c, u, key, ⟨ht, hc, ⟨stem, hstem, hname, hu⟩, hother, hkey⟩, rfl⟩
  · rintro ⟨t, c, u, key, ⟨ht, hc, ⟨stem, hstem, hname, hu⟩, hother, hkey⟩, rfl⟩
    exact ⟨t, ht, c, hc, stem, ⟨hstem, hname⟩, u, hu, hother, key, hkey, rfl⟩

/-- The column to which a name leads is there, in a table that is there. -/
theorem Suggests.target_mem (h : s.Suggests t c u key) : u ∈ s.tables ∧ key ∈ u.columns := by
  obtain ⟨stem, -, -, hu⟩ := h.named
  exact ⟨mem_of_findTable? hu, Table.mem_of_primaryKey? h.primaryKey⟩

theorem inferRelationships_inferRelationships (s : Schema) :
    s.inferRelationships.inferRelationships = s.inferRelationships :=
  congrArg (Schema.mk s.tables · s.functions) (foldl_insertRelationship_again _ _)

/-- What the names of columns suggest is added behind the relationships that are there, and to
infer once more adds nothing.  Each relationship that is added goes from a column that is there to
the key of another table that is there, as the name of the column suggests; and each column whose
name suggests a key has a relationship to it afterwards. -/
theorem inferRelationships_adds_suggested (s : Schema) :
    ∃ added, s.inferRelationships.relationships = s.relationships ++ added ∧
      s.inferredCount = added.length ∧
      s.inferRelationships.inferRelationships = s.inferRelationships ∧
      s.inferRelationships.inferredCount = 0 ∧
      (∀ r ∈ added, ∃ t c u key, s.Suggests t c u key ∧ u ∈ s.tables ∧ key ∈ u.columns ∧
        r = keyRelationship t c u key) ∧
      ∀ t c u key, s.Suggests t c u key → ∃ r ∈ s.inferRelationships.relationships,
        r.source.same ⟨t.name, c.name⟩ = true ∧ r.target.same ⟨u.name, key.name⟩ = true := by
  obtain ⟨added, hadded, hsub⟩ :=
    exists_foldl_insertRelationship s.relationships s.suggestedRelationships
  refine ⟨added, hadded, ?_, s.inferRelationships_inferRelationships, ?_, ?_, ?_⟩
  · rw [inferredCount, inferRelationships, hadded, List.length_append, Nat.add_sub_cancel_left]
  · rw [inferredCount, inferRelationships_inferRelationships, Nat.sub_self]
  · intro r hr
    obtain ⟨t, c, u, key, hsuggests, rfl⟩ := mem_suggestedRelationships.1 (hsub.subset hr)
    exact ⟨t, c, u, key, hsuggests, hsuggests.target_mem.1, hsuggests.target_mem.2, rfl⟩
  · intro t c u key hsuggests
    have hsuggested := mem_suggestedRelationships.2 ⟨t, c, u, key, hsuggests, rfl⟩
    have hkey : (keyRelationship t c u key).key ∈
        s.inferRelationships.relationships.map Relationship.key :=
      mem_keys_foldl_insertRelationship.2 (.inr (List.mem_map_of_mem hsuggested))
    obtain ⟨r, hr, hrkey⟩ := List.mem_map.1 hkey
    obtain ⟨hsource, htarget⟩ := Prod.mk.inj hrkey
    exact ⟨r, hr, Pointer.same_iff.2 hsource, Pointer.same_iff.2 htarget⟩

end Schema

end AskSql
