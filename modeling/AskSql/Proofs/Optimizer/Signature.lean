import AskSql.Optimizer.Signature
import AskSql.Proofs.Query.Document
import AskSql.Proofs.Schema.Outline

/-!
# What a signature tells

A signature gives back the query, as far as its floats are finite, and the numbers of rows of its
tables, if the outlines of these are known (`Query.signature_unique`).  It says nothing of tables
that are read in subqueries alone, and of the columns of a table nothing but which have an index.
-/

namespace AskSql

/-! ### Tables -/

/-- A number of rows as it stands in a signature. -/
def rowChars : Option Nat → List Char
  | some n => "Some(".toList ++ (Nat.toDigits 10 n ++ [')'])
  | none => "None".toList

theorem digits_unique {n k : Nat} {mark : Char} (hmark : mark.isDigit = false)
    {rest rest' : List Char}
    (h : Nat.toDigits 10 n ++ mark :: rest = Nat.toDigits 10 k ++ mark :: rest') :
    n = k ∧ rest = rest' := by
  have hdigits : ∀ n (rest : List Char),
      (Nat.toDigits 10 n ++ mark :: rest).takeWhile Char.isDigit = Nat.toDigits 10 n := by
    intro n rest
    rw [List.takeWhile_append_of_pos fun c hc => isDigit_of_mem_digits hc]
    simp [hmark]
  have hn := hdigits n rest
  rw [h, hdigits k rest'] at hn
  obtain rfl := toDigits_unique hn
  exact ⟨rfl, (List.cons.inj (List.append_cancel_left h)).2⟩

theorem rowChars_unique {o o' : Option Nat} {rest rest' : List Char}
    (h : rowChars o ++ ':' :: rest = rowChars o' ++ ':' :: rest') : o = o' ∧ rest = rest' := by
  cases o with
  | none =>
      cases o' with
      | none => exact ⟨rfl, (List.cons.inj (List.append_cancel_left h)).2⟩
      | some k => simp [rowChars] at h
  | some n =>
      cases o' with
      | none => simp [rowChars] at h
      | some k =>
          simp only [rowChars, List.append_assoc, List.singleton_append] at h
          obtain ⟨rfl, hrest⟩ := digits_unique (by decide) (List.append_cancel_left h)
          exact ⟨rfl, (List.cons.inj hrest).2⟩

namespace Table

/-- The indexed columns as they stand in a signature. -/
def indexChars (t : Table) : List Char :=
  (String.intercalate "," ((t.columns.filter Column.hasIndex).map Column.name)).toList

theorem indexChars_congr {t u : Table} (h : t.outline = u.outline) :
    t.indexChars = u.indexChars := by
  have hnames : ∀ v : Table, (v.columns.filter Column.hasIndex).map Column.name =
      (v.outline.filter fun o => o.2.2.2).map fun o => o.1 := by
    intro v
    rw [outline, List.filter_map, List.map_map]
    rfl
  rw [indexChars, indexChars, hnames, hnames, h]

theorem toList_statistics (t : Table) :
    t.statistics.toList = rowChars t.rowCount ++ ':' :: t.indexChars := by
  unfold statistics indexChars rowChars
  cases t.rowCount with
  | none => simp
  | some n => simp

end Table

namespace Schema

variable {s s' : Schema}

/-- What a signature holds for a table, after its name. -/
def statisticsChars (s : Schema) (table : String) : List Char :=
  (((s.table? table).map Table.statistics).getD "").toList

theorem toList_tableSignature (s : Schema) (table : String) :
    (s.tableSignature table).toList =
      '|' :: ((Text.lower table).toList ++ '=' :: s.statisticsChars table) := by
  simp [tableSignature, statisticsChars]

theorem statisticsChars_unique {table : String} (houtline : s.outline? table = s'.outline? table)
    {rest rest' : List Char}
    (h : s.statisticsChars table ++ rest = s'.statisticsChars table ++ rest') :
    s.rowCount? table = s'.rowCount? table ∧ rest = rest' := by
  rw [rowCount?, rowCount?]
  unfold statisticsChars at h
  obtain ⟨ht, hu⟩ | ⟨t, u, ht, hu, houtline⟩ := cases_of_map_eq houtline
  · rw [ht, hu] at h
    exact ⟨by rw [ht, hu], List.append_cancel_left h⟩
  · simp only [ht, hu, Option.map_some, Option.getD_some, Table.toList_statistics,
      List.append_assoc, List.cons_append, Table.indexChars_congr houtline] at h
    obtain ⟨hrows, hafter⟩ := rowChars_unique h
    exact ⟨by rw [ht, hu, Option.bind_some, Option.bind_some, hrows],
      List.append_cancel_left hafter⟩

/-- Table by table, the numbers of rows can be told. -/
theorem signatures_unique {tables : List String}
    (houtline : ∀ t ∈ tables, s.outline? t = s'.outline? t)
    (h : (String.join (tables.map s.tableSignature)).toList =
      (String.join (tables.map s'.tableSignature)).toList) :
    ∀ t ∈ tables, s.rowCount? t = s'.rowCount? t := by
  induction tables with
  | nil => simp
  | cons t rest ih =>
      obtain ⟨ht, hrest⟩ := List.forall_mem_cons.1 houtline
      simp only [List.map_cons, String.join_cons, String.toList_append, toList_tableSignature,
        List.cons_append, List.append_assoc] at h
      -- the names are the same, so what follows is
      have hafter := (List.cons.inj (List.append_cancel_left (List.cons.inj h).2)).2
      obtain ⟨hrows, hothers⟩ := statisticsChars_unique ht hafter
      exact List.forall_mem_cons.2 ⟨hrows, ih hrest hothers⟩

end Schema

namespace Query

variable {s s' : Schema} {q p : Query}

theorem endsNumber_signatures (s : Schema) (tables : List String) :
    Json.EndsNumber (String.join (tables.map s.tableSignature)).toList := by
  cases tables with
  | nil => simp [Json.EndsNumber]
  | cons t rest =>
      rw [List.map_cons, String.join_cons, String.toList_append, Schema.toList_tableSignature]
      exact Json.endsNumber_cons (by decide) _

/-- Queries of the same signature are the same but for floats that no document shows. -/
theorem shown_eq_of_signature_eq (h : q.signature s = p.signature s') :
    q.mapLiterals Literal.shown = p.mapLiterals Literal.shown := by
  have hchars := congrArg String.toList h
  rw [signature, signature, String.toList_append, String.toList_append] at hchars
  obtain ⟨hjson, -⟩ := toJson_eq_of_toText_append (endsNumber_signatures s _)
    (endsNumber_signatures s' _) hchars
  exact shown_eq_of_toJson q p hjson

/-- A signature gives back the query and the numbers of rows of its tables. -/
theorem signature_unique (hq : q.isFinite = true) (h : q.signature s = p.signature s')
    (houtline : ∀ t ∈ q.tables, s.outline? t = s'.outline? t) :
    q = p ∧ ∀ t ∈ q.tables, s.rowCount? t = s'.rowCount? t := by
  have hchars := congrArg String.toList h
  rw [signature, signature, String.toList_append, String.toList_append] at hchars
  obtain ⟨rfl, hafter⟩ := toText_append_inj hq (endsNumber_signatures s _)
    (endsNumber_signatures s' _) hchars
  exact ⟨rfl, Schema.signatures_unique houtline hafter⟩

end Query
end AskSql
