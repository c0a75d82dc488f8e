import AskSql.Proofs.Query.Scope
import AskSql.Proofs.Schema.Lookup
import AskSql.Schema.Reading

/-!
# Names in schemas that are read

Reading starts without tables and adds them one by one, and a table takes the place of an earlier
one of its name; nothing else that reading does gives a table another name.  So no two tables of a
schema that is read from a text have the same name, whatever the format
(`Schema.hasDistinctNames_ofText`).
-/

namespace AskSql

/-- What every step keeps holds at the end, if the end is reached. -/
theorem Failure.foldlM_invariant {σ α : Type} {f : σ → α → Except Failure σ} (I : σ → Prop)
    (hstep : ∀ s a t, I s → f s a = .ok t → I t) {as : List α} {s t : σ} (hs : I s)
    (h : as.foldlM f s = .ok t) : I t := by
  induction as generalizing s with
  | nil =>
      obtain rfl := Except.ok.inj h
      exact hs
  | cons a as ih =>
      rw [List.foldlM_cons, bind_eq_ok_iff] at h
      obtain ⟨next, hnext, hrest⟩ := h
      exact ih (hstep s a next hs hnext) hrest

namespace Schema

variable {s s' : Schema}

theorem hasDistinctNames_empty : ({} : Schema).HasDistinctNames :=
  List.nodup_nil

/-! ### One step -/

theorem HasDistinctNames.addTable (h : s.HasDistinctNames) (t : Table) :
    (s.addTable t).HasDistinctNames := by
  rw [HasDistinctNames, Schema.addTable, List.map_append, List.map_singleton,
    ← List.concat_eq_append]
  refine List.Nodup.concat (fun hmem => ?_) (h.sublist (List.filter_sublist.map _))
  obtain ⟨u, hu, hname⟩ := List.mem_map.1 hmem
  have hother := (List.mem_filter.1 hu).2
  rw [sameName_iff.2 hname] at hother
  cases hother

/-- A table is added that may turn out not to be readable. -/
theorem HasDistinctNames.of_addTable {x : Except Failure Table} (h : s.HasDistinctNames)
    (hadded : (x >>= fun t => .ok (s.addTable t)) = .ok s') : s'.HasDistinctNames := by
  obtain ⟨t, -, hs⟩ := (Failure.bind_eq_ok_iff _ _ _).1 hadded
  obtain rfl := Except.ok.inj hs
  exact h.addTable t

theorem HasDistinctNames.addRelationship (h : s.HasDistinctNames) (r : Relationship) :
    (s.addRelationship r).HasDistinctNames :=
  h

theorem HasDistinctNames.addFunctions (h : s.HasDistinctNames) (fs : List SchemaFunction) :
    (fs.foldl addFunction s).HasDistinctNames := by
  induction fs generalizing s with
  | nil => exact h
  | cons f fs ih => exact ih (s := s.addFunction f) h

theorem map_updateFirst {α β : Type} {accepts : α → Bool} {f : α → α} {g : α → β} {xs ys : List α}
    (hsame : ∀ x, g (f x) = g x) (h : updateFirst accepts f xs = some ys) :
    ys.map g = xs.map g := by
  obtain ⟨before, x, after, rfl, rfl⟩ := updateFirst_eq_some h
  rw [List.map_append, List.map_append, List.map_cons, List.map_cons, hsame]

/-- The table in which a column is marked has the name that it had. -/
theorem HasDistinctNames.markIndexed? (h : s.HasDistinctNames) {table column : String}
    (hmarked : s.markIndexed? table column = some s') : s'.HasDistinctNames := by
  obtain ⟨t, -, hmarked⟩ := Option.bind_eq_some_iff.1 hmarked
  obtain ⟨columns, -, hmarked⟩ := Option.bind_eq_some_iff.1 hmarked
  obtain ⟨tables, htables, hmarked⟩ := Option.bind_eq_some_iff.1 hmarked
  obtain rfl := Option.some.inj hmarked
  have hnames : tables.map (fun u => Name.normalize u.name) =
      s.tables.map fun u => Name.normalize u.name := by
    refine map_updateFirst (fun u => ?_) htables
    rfl
  unfold HasDistinctNames at h ⊢
  rwa [hnames]

theorem HasDistinctNames.markAll (h : s.HasDistinctNames) (indexes : List (String × String)) :
    (indexes.foldl (fun s (table, column) => (s.markIndexed? table column).getD s)
      s).HasDistinctNames := by
  induction indexes generalizing s with
  | nil => exact h
  | cons index indexes ih =>
      refine ih ?_
      show ((s.markIndexed? index.1 index.2).getD s).HasDistinctNames
      cases hmarked : s.markIndexed? index.1 index.2 with
      | none => exact h
      | some next => exact h.markIndexed? hmarked

/-! ### Formats -/

theorem hasDistinctNames_ofScript {script : String} (h : ofScript script = .ok s) :
    s.HasDistinctNames := by
  unfold ofScript at h
  split at h
  · obtain ⟨⟨built, indexes⟩, hbuilt, hs⟩ := (Failure.bind_eq_ok_iff _ _ _).1 h
    have hdistinct : built.HasDistinctNames := by
      refine Failure.foldlM_invariant (fun acc => acc.1.HasDistinctNames) ?_
        hasDistinctNames_empty hbuilt
      rintro ⟨acc, later⟩ statement next hacc hnext
      cases statement with
      | createTable d =>
          obtain ⟨t, -, hnext⟩ := (Failure.bind_eq_ok_iff _ _ _).1 hnext
          obtain rfl := Except.ok.inj hnext
          exact hacc.addTable t
      | createIndex table columns =>
          obtain rfl := Except.ok.inj hnext
          exact hacc
      | other =>
          obtain rfl := Except.ok.inj hnext
          exact hacc
    obtain rfl := Except.ok.inj hs
    exact hdistinct.markAll indexes
  · cases h

theorem hasDistinctNames_ofObject {j : Json} (h : ofObject j = .ok s) : s.HasDistinctNames := by
  unfold ofObject at h
  split at h
  · obtain ⟨tabled, htabled, h⟩ := (Failure.bind_eq_ok_iff _ _ _).1 h
    obtain ⟨joined, hjoined, h⟩ := (Failure.bind_eq_ok_iff _ _ _).1 h
    have htabledDistinct : tabled.HasDistinctNames := by
      refine Failure.foldlM_invariant _ (fun acc j next hacc hnext => ?_)
        hasDistinctNames_empty htabled
      exact hacc.of_addTable hnext
    have hjoinedDistinct : joined.HasDistinctNames := by
      refine Failure.foldlM_invariant _ (fun acc j next hacc hnext => ?_) htabledDistinct
        hjoined
      obtain ⟨r, -, hnext⟩ := (Failure.bind_eq_ok_iff _ _ _).1 hnext
      obtain rfl := Except.ok.inj hnext
      exact hacc.addRelationship r
    split at h
    · obtain rfl := Except.ok.inj h
      exact hjoinedDistinct
    · split at h
      · obtain rfl := Except.ok.inj h
        exact hjoinedDistinct.addFunctions _
      · cases h
  · cases h

theorem hasDistinctNames_ofDocument {text : String} {tableName : Option String}
    (h : ofDocument text tableName = .ok s) : s.HasDistinctNames := by
  unfold ofDocument at h
  split at h
  · split at h
    · exact hasDistinctNames_empty.of_addTable h
    · split at h
      · exact hasDistinctNames_ofObject h
      · refine Failure.foldlM_invariant _ (fun acc m next hacc hnext => ?_)
          hasDistinctNames_empty h
        exact hacc.of_addTable hnext
    · cases h
  · cases h

theorem hasDistinctNames_ofFormat {text : String} {tableName : Option String}
    {format : SchemaFormat} (h : ofFormat text tableName format = .ok s) :
    s.HasDistinctNames := by
  cases format with
  | script => exact hasDistinctNames_ofScript h
  | json => exact hasDistinctNames_ofDocument h
  | csv =>
      cases tableName with
      | none => cases h
      | some name => exact hasDistinctNames_empty.of_addTable h
  | naturalLanguage => cases h
  | auto => cases h

/-- No two tables of a schema that is read from a text have the same name. -/
theorem hasDistinctNames_ofText {text : String} {format : SchemaFormat}
    {tableName : Option String} (h : ofText text format tableName = .ok s) :
    s.HasDistinctNames := by
  unfold ofText at h
  split at h
  -- the format that is given, and the one that the text shows, are read alike
  all_goals
    obtain ⟨shown, -, h⟩ := (Failure.bind_eq_ok_iff _ _ _).1 h
    obtain ⟨read, hread, h⟩ := (Failure.bind_eq_ok_iff _ _ _).1 h
    have hdistinct := hasDistinctNames_ofFormat hread
    cases hempty : read.isEmpty with
    | true =>
        rw [hempty] at h
        cases h
    | false =>
        rw [hempty] at h
        obtain rfl := Except.ok.inj h
        split
        · exact hdistinct
        · exact hdistinct

end Schema

end AskSql
