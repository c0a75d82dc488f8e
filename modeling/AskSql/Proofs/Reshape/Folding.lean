import AskSql.Proofs.Reshape.Distinct
import AskSql.Reshape.Folding

/-!
# Folded conditions

Folding drops a comparison of two literals that holds (`Condition.AlwaysHolds`), writes a list or a
range of one value as a comparison (`Condition.Narrows`), and drops what stands in the list already.
What remains of the conditions is added one after the other (`Condition.fst_foldAll`).  So a
property of conditions that narrowing keeps holds of a folded list if it holds of the list
(`Condition.forall_foldAll`).
-/

namespace AskSql

namespace Condition

/-! ### What becomes of a condition -/

/-- A comparison of two literals that holds. -/
inductive AlwaysHolds : Condition → Prop where
  | compare {a b : Literal} {op : Comparison} (h : a.evaluate? op b = some true) :
      AlwaysHolds ⟨.literal a, op, .literal b⟩

/-- A list or a range of one value, and the comparison that takes its place. -/
inductive Narrows : Condition → Condition → Prop where
  | range {lhs : Operand} {low high : Literal} (h : (low == high) = true) :
      Narrows ⟨lhs, .between, .range low high⟩ ⟨lhs, .eq, .literal low⟩
  | isIn {lhs : Operand} {v : Literal} :
      Narrows ⟨lhs, .isIn, .list [v]⟩ ⟨lhs, .eq, .literal v⟩
  | notIn {lhs : Operand} {v : Literal} :
      Narrows ⟨lhs, .notIn, .list [v]⟩ ⟨lhs, .notEq, .literal v⟩

theorem fold_eq_dropped_iff {c : Condition} : (∃ note, c.fold = .dropped note) ↔ c.AlwaysHolds := by
  constructor
  · rintro ⟨note, h⟩
    obtain ⟨lhs, op, rhs⟩ := c
    unfold fold at h
    dsimp only at h
    -- one case for each rule of folding, and only the first one drops a condition
    split at h
    · next a b =>
        split at h
        · next heval => exact .compare (eq_of_beq heval)
        · cases h
    · split at h <;> cases h
    · cases h
    · cases h
    · cases h
  · rintro ⟨h⟩
    simp only [fold, h, beq_self_eq_true, if_true, Folded.dropped.injEq, exists_eq']

theorem fold_eq_replaced_iff {c d : Condition} :
    (∃ note, c.fold = .replaced d note) ↔ c.Narrows d := by
  constructor
  · rintro ⟨note, h⟩
    obtain ⟨lhs, op, rhs⟩ := c
    unfold fold at h
    dsimp only at h
    split at h
    · split at h <;> cases h
    · split at h
      · next hbeq =>
          cases h
          exact .range hbeq
      · cases h
    · cases h
      exact .isIn
    · cases h
      exact .notIn
    · cases h
  · intro h
    cases h with
    | range h => simp only [fold, h, if_true, Folded.replaced.injEq, true_and, exists_eq']
    | @isIn lhs v => cases lhs <;> exact ⟨_, rfl⟩
    | @notIn lhs v => cases lhs <;> exact ⟨_, rfl⟩

/-- What takes the place of a list or a range is no list and no range. -/
theorem Narrows.not_narrows {c d e : Condition} (h : c.Narrows d) : ¬ d.Narrows e := by
  intro h'
  cases h <;> cases h'

theorem fold_eq_kept_iff {c : Condition} :
    c.fold = .kept ↔ ¬ c.AlwaysHolds ∧ ∀ d, ¬ c.Narrows d := by
  simp only [← fold_eq_dropped_iff, ← fold_eq_replaced_iff]
  cases c.fold <;> simp

/-- What remains of a condition. -/
def remainder? (c : Condition) : Option Condition :=
  match c.fold with
  | .dropped _ => none
  | .replaced d _ => some d
  | .kept => some c

/-- A condition is dropped, written otherwise, or left as it is. -/
theorem remainder?_cases (c : Condition) :
    (c.AlwaysHolds ∧ c.remainder? = none) ∨ (∃ d, c.Narrows d ∧ c.remainder? = some d) ∨
      (c.fold = .kept ∧ c.remainder? = some c) := by
  unfold remainder?
  cases hfold : c.fold with
  | dropped note => exact .inl ⟨fold_eq_dropped_iff.1 ⟨note, hfold⟩, rfl⟩
  | replaced d note => exact .inr (.inl ⟨d, fold_eq_replaced_iff.1 ⟨note, hfold⟩, rfl⟩)
  | kept => exact .inr (.inr ⟨rfl, rfl⟩)

/-! ### What becomes of a list -/

theorem fst_addFolded (acc : List Condition × List String) (c : Condition) (notes : List String) :
    (addFolded acc c notes).1 = addDistinct (· == ·) acc.1 c := by
  rw [addFolded, addDistinct, List.contains_eq_any_beq]
  split <;> rfl

/-- The remainders are added one after the other. -/
theorem fst_foldl_foldInto (cs : List Condition) (acc : List Condition × List String) :
    (cs.foldl foldInto acc).1 = (cs.filterMap remainder?).foldl (addDistinct (· == ·)) acc.1 := by
  induction cs generalizing acc with
  | nil => rfl
  | cons c cs ih =>
      rw [List.foldl_cons, ih, List.filterMap_cons, remainder?, foldInto]
      cases c.fold with
      | dropped note => rfl
      | replaced d note => rw [fst_addFolded, List.foldl_cons]
      | kept => rw [fst_addFolded, List.foldl_cons]

theorem fst_foldAll (cs : List Condition) :
    (foldAll cs).1 = (cs.filterMap remainder?).foldl (addDistinct (· == ·)) [] :=
  fst_foldl_foldInto cs ([], [])

/-- What is in a folded list was there before, or takes the place of a list or a range. -/
theorem mem_foldAll {cs : List Condition} {e : Condition} (h : e ∈ (foldAll cs).1) :
    (e ∈ cs ∧ e.fold = .kept) ∨ ∃ c ∈ cs, c.Narrows e := by
  rw [fst_foldAll] at h
  obtain ⟨c, hc, hce⟩ := List.mem_filterMap.1 ((sublist_foldl_addDistinct _ [] _).subset h)
  obtain ⟨-, hnone⟩ | ⟨d, hd, hsome⟩ | ⟨hkept, hsome⟩ := c.remainder?_cases
  · cases hce.symm.trans hnone
  · obtain rfl := Option.some.inj (hce.symm.trans hsome)
    exact .inr ⟨c, hc, hd⟩
  · obtain rfl := Option.some.inj (hce.symm.trans hsome)
    exact .inl ⟨hc, hkept⟩

/-- A property of conditions that folding keeps holds of a list of folded ones. -/
theorem forall_foldAll {Q : Condition → Prop} {cs : List Condition} (h : ∀ c ∈ cs, Q c)
    (hnarrows : ∀ c d, Q c → c.Narrows d → Q d) : ∀ c ∈ (foldAll cs).1, Q c := by
  intro e he
  obtain ⟨hmem, -⟩ | ⟨c, hc, hce⟩ := mem_foldAll he
  · exact h e hmem
  · exact hnarrows c e (h c hc) hce

end Condition

theorem Query.joins_foldConstants (q : Query) :
    q.foldConstants.query.joins =
      q.joins.map fun j => { j with conditions := (Condition.foldAll j.conditions).1 } := by
  simp [foldConstants, Function.comp_def]

end AskSql
