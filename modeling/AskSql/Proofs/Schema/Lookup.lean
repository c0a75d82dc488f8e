import AskSql.Proofs.Schema.JoinPath
import AskSql.Query.Expression
import AskSql.Schema.Relation
import Mathlib.Data.List.Nodup
import Mathlib.Data.Option.Basic

/-!
# Names that resolve

The name of a table finds that table again where no two tables of the schema have the same normal
form (`Schema.HasDistinctNames`).  Where two tables have the same, the first one is found by the
names of both.  A table that was found by any name is found by its own name in every schema.
-/

namespace AskSql

/-- The name carries no blanks around it, and is not put between marks. -/
def Name.IsBare (name : String) : Prop :=
  Name.unquote name = name

instance (name : String) : Decidable (Name.IsBare name) :=
  inferInstanceAs (Decidable (_ = _))

/-- All that the normal form does to a bare name is to make its letters small. -/
theorem Name.IsBare.normalize_eq {name : String} (h : Name.IsBare name) :
    Name.normalize name = Text.lower name :=
  congrArg Text.lower h

/-- The name is bare, and does not consist of blanks. -/
structure Name.IsPlain (name : String) : Prop where
  unquoted : Name.unquote name = name
  named : Text.isBlankText name = false

theorem Name.IsPlain.isBare {name : String} (h : Name.IsPlain name) : Name.IsBare name :=
  h.unquoted

theorem Name.IsPlain.normalize_eq {name : String} (h : Name.IsPlain name) :
    Name.normalize name = Text.lower name :=
  h.isBare.normalize_eq

namespace Table

variable {t : Table} {c : Column}

theorem hasColumn_of_mem (h : c ∈ t.columns) : (t.column? c.name).isSome = true :=
  List.find?_isSome.2 ⟨c, h, sameName_self c.name⟩

theorem mem_of_column? {name : String} (h : t.column? name = some c) : c ∈ t.columns :=
  List.mem_of_find?_eq_some h

theorem mem_of_findSome?_column? {names : List String} (h : names.findSome? t.column? = some c) :
    c ∈ t.columns := by
  obtain ⟨name, -, hname⟩ := List.exists_of_findSome?_eq_some h
  exact mem_of_column? hname

theorem mem_of_primaryKey? (h : t.primaryKey? = some c) : c ∈ t.columns := by
  obtain hdeclared | ⟨-, hid⟩ := (Option.orElse_eq_some _ _ _).1 h
  · exact List.mem_of_find?_eq_some hdeclared
  · exact mem_of_column? hid

theorem mem_of_labelColumn? (h : t.labelColumn? = some c) : c ∈ t.columns := by
  obtain hlabel | ⟨-, hother⟩ := (Option.orElse_eq_some _ _ _).1 h
  · exact mem_of_findSome?_column? hlabel
  · obtain htext | ⟨-, hkey⟩ := (Option.orElse_eq_some _ _ _).1 hother
    · exact List.mem_of_find?_eq_some htext
    · exact mem_of_primaryKey? hkey

theorem mem_of_dateColumn? (h : t.dateColumn? = some c) : c ∈ t.columns := by
  obtain htemporal | ⟨-, hnamed⟩ := (Option.orElse_eq_some _ _ _).1 h
  · exact List.mem_of_find?_eq_some htemporal
  · exact List.mem_of_find?_eq_some hnamed

theorem mem_of_mem_measures (h : c ∈ t.measures) : c ∈ t.columns :=
  (List.mem_filter.1 h).1

end Table

namespace Schema

variable {s : Schema}

/-- All names that the schema writes are bare. -/
def HasBareNames (s : Schema) : Prop :=
  ∀ name, s.Writes name → Name.IsBare name

/-- All names that the schema writes are plain. -/
def HasPlainNames (s : Schema) : Prop :=
  ∀ name, s.Writes name → Name.IsPlain name

theorem HasPlainNames.bare (h : s.HasPlainNames) : s.HasBareNames := fun name hname =>
  (h name hname).isBare

/-- No two tables have the same name. -/
def HasDistinctNames (s : Schema) : Prop :=
  (s.tables.map fun t => Name.normalize t.name).Nodup

/-- The reference stands for all columns, or for one that the schema has. -/
def Resolves (s : Schema) (r : Reference) : Prop :=
  r.column ≠ "*" → (s.column? r.table r.column).isSome = true

theorem resolves_star (s : Schema) (table : String) : s.Resolves (.star table) :=
  fun h => absurd rfl h

theorem table?_congr (s : Schema) {a b : String} (h : Name.normalize a = Name.normalize b) :
    s.table? a = s.table? b := by
  simp only [table?, sameName, h]

theorem table?_name {name : String} {t : Table} (h : s.table? name = some t) :
    s.table? t.name = some t := by
  rw [s.table?_congr (normalize_name_of_table? h), h]

theorem table?_of_mem (h : s.HasDistinctNames) {t : Table} (ht : t ∈ s.tables) :
    s.table? t.name = some t := by
  have hfound : (s.table? t.name).isSome = true :=
    List.find?_isSome.2 ⟨t, ht, sameName_self t.name⟩
  obtain ⟨u, hu⟩ := Option.isSome_iff_exists.1 hfound
  have heq : u = t :=
    List.inj_on_of_nodup_map h (mem_of_table? hu) ht (normalize_name_of_table? hu)
  rw [hu, heq]

/-- A column of a table that is found by a name, under that name. -/
theorem resolves_of_table? {name : String} {t : Table} {c : Column} (h : s.table? name = some t)
    (hc : c ∈ t.columns) (label : Option String) : s.Resolves ⟨name, c.name, label⟩ := by
  intro _
  rw [column?, h, Option.bind_some]
  exact Table.hasColumn_of_mem hc

theorem mem_of_findTable? {word : String} {t : Table} (h : s.findTable? word = some t) :
    t ∈ s.tables := by
  unfold findTable? at h
  dsimp only at h
  split at h
  · cases h
  · obtain hname | ⟨-, hform⟩ := (Option.orElse_eq_some _ _ _).1 h
    · exact mem_of_table? hname
    · exact List.mem_of_find?_eq_some hform

theorem mem_of_mem_tablesWithColumn {column : String} {t : Table}
    (h : t ∈ s.tablesWithColumn column) : t ∈ s.tables :=
  (List.mem_filter.1 h).1

end Schema

end AskSql
