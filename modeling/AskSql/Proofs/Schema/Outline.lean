import AskSql.Proofs.Text.Folding
import AskSql.Schema.Basic

/-!
# What schemas say about a table

An outline of a table says of its columns what plans and advice are made of: their names, sizes and
keys, and which of them have an index.  Two schemas say the same about a table if its outline and
its number of rows are the same in both (`Schema.SameTable`), under whatever name the table is
looked up: the case of ASCII letters plays no part (`Schema.table?_eq_of_lower_eq`).
-/

namespace AskSql

/-- Where a function makes the same of two values that may be absent, neither is there, or both. -/
theorem cases_of_map_eq {α β : Type} {f : α → β} {o o' : Option α} (h : o.map f = o'.map f) :
    (o = none ∧ o' = none) ∨ ∃ a a', o = some a ∧ o' = some a' ∧ f a = f a' := by
  cases o with
  | none =>
      cases o' with
      | none => exact .inl ⟨rfl, rfl⟩
      | some a' => cases h
  | some a =>
      cases o' with
      | none => cases h
      | some a' => exact .inr ⟨a, a', rfl, rfl, Option.some.inj h⟩

namespace Name

open Text

theorem trimChars_map_toLower (cs : List Char) :
    trimChars (cs.map Char.toLower) = (trimChars cs).map Char.toLower := by
  have hblank : isBlank ∘ Char.toLower = isBlank := funext isBlank_toLower
  simp only [trimChars, List.dropWhile_map, ← List.map_reverse, hblank]

/-- A quotation mark stands where it stood before. -/
theorem toLower_eq_iff {c mark : Char}
    (hmark : mark.toNat < 65 ∨ 90 < mark.toNat ∧ mark.toNat < 97 ∨ 122 < mark.toNat) :
    c.toLower = mark ↔ c = mark := by
  rw [← Char.toNat_inj, ← Char.toNat_inj, toNat_toLower]
  split
  · omega
  · rfl

theorem between?_map_toLower {opening closing : Char}
    (hopening : ∀ c : Char, c.toLower = opening ↔ c = opening)
    (hclosing : ∀ c : Char, c.toLower = closing ↔ c = closing) (cs : List Char) :
    between? opening closing (cs.map Char.toLower) =
      (between? opening closing cs).map (List.map Char.toLower) := by
  cases cs with
  | nil => rfl
  | cons c rest =>
      have hlast : ((rest.map Char.toLower).getLast? = some closing) ↔
          rest.getLast? = some closing := by
        rw [List.getLast?_map, Option.map_eq_some_iff]
        constructor
        · rintro ⟨d, hd, hclose⟩
          rwa [(hclosing d).1 hclose] at hd
        · intro hd
          exact ⟨closing, hd, (hclosing closing).2 rfl⟩
      simp only [between?, List.map_cons, Bool.and_eq_true, beq_iff_eq, hopening, hlast]
      split
      · rw [Option.map_some, List.map_dropLast]
      · rfl

theorem unquote_lower (name : String) : unquote (lower name) = lower (unquote name) := by
  have hquote : ∀ c : Char, c.toLower = '"' ↔ c = '"' := fun _ => toLower_eq_iff (by decide)
  have hback : ∀ c : Char, c.toLower = '\x60' ↔ c = '\x60' := fun _ => toLower_eq_iff (by decide)
  have hopen : ∀ c : Char, c.toLower = '[' ↔ c = '[' := fun _ => toLower_eq_iff (by decide)
  have hclose : ∀ c : Char, c.toLower = ']' ↔ c = ']' := fun _ => toLower_eq_iff (by decide)
  simp only [unquote, toList_lower, trimChars_map_toLower, between?_map_toLower hquote hquote,
    between?_map_toLower hback hback, between?_map_toLower hopen hclose]
  rw [lower, String.toList_ofList]
  congr 1
  cases between? '"' '"' (trimChars name.toList) with
  | some inner => rfl
  | none =>
      cases between? '\x60' '\x60' (trimChars name.toList) with
      | some inner => rfl
      | none =>
          cases between? '[' ']' (trimChars name.toList) with
          | some inner => rfl
          | none => rfl

/-- Names that differ in the case of ASCII letters alone name the same. -/
theorem normalize_eq_of_lower_eq {a b : String} (h : lower a = lower b) :
    normalize a = normalize b := by
  have hfolded : ∀ name, normalize (lower name) = normalize name := by
    intro name
    rw [normalize, unquote_lower, lower_lower, normalize]
  rw [← hfolded a, h, hfolded]

end Name

/-- The name of a column, the size of its values, whether it is a key, and whether it has an
index. -/
def Column.outline (c : Column) : String × Nat × Bool × Bool :=
  (c.name, c.type.width, c.primaryKey, c.hasIndex)

/-- The outlines of the columns of a table. -/
def Table.outline (t : Table) : List (String × Nat × Bool × Bool) :=
  t.columns.map Column.outline

namespace Table

variable {t u : Table}

theorem rowWidth_congr (h : t.outline = u.outline) : t.rowWidth = u.rowWidth := by
  have hwidths : ∀ v : Table,
      v.columns.map (fun c => c.type.width) = v.outline.map fun o => o.2.1 := by
    intro v
    rw [outline, List.map_map]
    rfl
  rw [rowWidth, rowWidth, hwidths, hwidths, h]

theorem length_columns_congr (h : t.outline = u.outline) :
    t.columns.length = u.columns.length := by
  simpa [outline] using congrArg List.length h

theorem outline_find? (p : String × Nat × Bool × Bool → Bool) :
    (t.columns.find? fun c => p c.outline).map Column.outline = t.outline.find? p := by
  rw [outline, List.find?_map]
  rfl

theorem column?_congr (h : t.outline = u.outline) (name : String) :
    (t.column? name).map Column.outline = (u.column? name).map Column.outline := by
  have hfound : ∀ v : Table, (v.column? name).map Column.outline =
      v.outline.find? fun o => sameName o.1 name :=
    fun v => outline_find? (t := v) fun o => sameName o.1 name
  rw [hfound, hfound, h]

theorem primaryKey?_congr (h : t.outline = u.outline) :
    t.primaryKey?.map Column.outline = u.primaryKey?.map Column.outline := by
  have hdeclared : ∀ v : Table, (v.columns.find? Column.primaryKey).map Column.outline =
      v.outline.find? fun o => o.2.2.1 := fun v => outline_find? (t := v) fun o => o.2.2.1
  have hsplit : ∀ v : Table, v.primaryKey?.map Column.outline =
      ((v.outline.find? fun o => o.2.2.1) <|> (v.column? "id").map Column.outline) := by
    intro v
    rw [← hdeclared, primaryKey?]
    cases v.columns.find? Column.primaryKey with
    | none => rfl
    | some c => rfl
  rw [hsplit, hsplit, h, column?_congr h]

end Table

namespace Schema

theorem table?_eq_of_lower_eq (s : Schema) {a b : String} (h : Text.lower a = Text.lower b) :
    s.table? a = s.table? b := by
  have hname : ∀ t : Table, sameName t.name a = sameName t.name b := by
    intro t
    rw [sameName, sameName, Name.normalize_eq_of_lower_eq h]
  simp only [table?, hname]

/-- The outline of a table, by its name. -/
def outline? (s : Schema) (name : String) : Option (List (String × Nat × Bool × Bool)) :=
  (s.table? name).map Table.outline

/-- Two schemas say the same about a table. -/
structure SameTable (s s' : Schema) (name : String) : Prop where
  outline : s.outline? name = s'.outline? name
  rows : s.rowCount? name = s'.rowCount? name

variable {s s' : Schema}

theorem SameTable.of_lower_eq {a b : String} (h : s.SameTable s' a)
    (hname : Text.lower b = Text.lower a) : s.SameTable s' b := by
  obtain ⟨houtline, hrows⟩ := h
  refine ⟨?_, ?_⟩
  · rwa [outline?, outline?, table?_eq_of_lower_eq s hname, table?_eq_of_lower_eq s' hname]
  · rwa [rowCount?, rowCount?, table?_eq_of_lower_eq s hname, table?_eq_of_lower_eq s' hname]

/-- What depends on the outline alone is the same for a table of both schemas. -/
theorem map_table?_congr {α : Type} {f : Table → α} {name : String}
    (hf : ∀ t u : Table, t.outline = u.outline → f t = f u)
    (h : s.outline? name = s'.outline? name) :
    (s.table? name).map f = (s'.table? name).map f := by
  obtain ⟨ht, hu⟩ | ⟨t, u, ht, hu, houtline⟩ := cases_of_map_eq h
  · rw [ht, hu]
  · rw [ht, hu, Option.map_some, Option.map_some, hf t u houtline]

theorem column?_congr {table : String} (h : s.outline? table = s'.outline? table)
    (column : String) :
    (s.column? table column).map Column.outline = (s'.column? table column).map Column.outline := by
  have hbind : ∀ s : Schema, (s.column? table column).map Column.outline =
      ((s.table? table).map fun t => (t.column? column).map Column.outline).join := by
    intro s
    rw [column?]
    cases s.table? table with
    | none => rfl
    | some t => rfl
  rw [hbind, hbind, map_table?_congr (fun _ _ houtline => Table.column?_congr houtline column) h]

/-- Whether there is an index on a column, if there is such a column. -/
theorem hasIndex_congr {table : String} (h : s.outline? table = s'.outline? table)
    (column : String) :
    (s.column? table column).map Column.hasIndex =
      (s'.column? table column).map Column.hasIndex := by
  have houtline : ∀ s : Schema, (s.column? table column).map Column.hasIndex =
      ((s.column? table column).map Column.outline).map fun o => o.2.2.2 := by
    intro s
    rw [Option.map_map]
    rfl
  rw [houtline, houtline, column?_congr h]

end Schema

end AskSql
