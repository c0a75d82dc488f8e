import AskSql.Proofs.Render.Words

/-!
# Clauses of a statement

The words of a statement fall into clauses: each clause begins with one of a few words, and no
other word of the statement is one of them.  The kind of a clause is told by its first word, and
the kinds stand in one order.  So the words determine the clauses (`clauses_unique`) and what stands
in each place of the order (`parts_unique`).

The conditions of a clause are set apart by `AND`.  A condition may have one of its own, between
the two ends of a range; it comes after `BETWEEN`, and this tells them apart
(`conjunction_unique`).
-/

namespace AskSql.Words

/-- The words that begin a clause, with the place of the clause. -/
def openers : List (List Char × Nat) :=
  [("SELECT".toList, 0), ("FROM".toList, 1), ("INNER".toList, 2), ("LEFT".toList, 2),
    ("WHERE".toList, 3), ("GROUP".toList, 4), ("HAVING".toList, 5), ("ORDER".toList, 6),
    ("LIMIT".toList, 7), ("FETCH".toList, 7)]

/-- The word between conditions, and between the ends of a range. -/
def conjoiner : List Char :=
  "AND".toList

/-- The word before a range. -/
def ranger : List Char :=
  "BETWEEN".toList

/-- The word before items that are selected once each. -/
def distinguisher : List Char :=
  "DISTINCT".toList

/-- The words by which a statement is divided. -/
def keywords : Phrase :=
  openers.map Prod.fst ++ [conjoiner, ranger, distinguisher]

/-- The word does not divide the statement. -/
def IsOrdinary (w : List Char) : Prop :=
  w ∉ keywords

instance (w : List Char) : Decidable (IsOrdinary w) :=
  inferInstanceAs (Decidable (w ∉ keywords))

/-- A word that has anything but capitals is ordinary. -/
theorem isOrdinary_of_mem {w : List Char} {c : Char} (hc : c ∈ w) (hupper : c.isUpper = false) :
    IsOrdinary w := by
  intro hw
  have hall : ∀ k ∈ keywords, k.all Char.isUpper = true := by decide
  rw [List.all_eq_true.1 (hall w hw) c hc] at hupper
  cases hupper

/-- The word begins no clause. -/
def IsInner (w : List Char) : Prop :=
  openers.lookup w = none

instance (w : List Char) : Decidable (IsInner w) :=
  inferInstanceAs (Decidable (openers.lookup w = none))

/-- A clause of the place `n`: the word that begins it, and words that begin none. -/
def IsClause (n : Nat) (s : Phrase) : Prop :=
  ∃ w body, s = w :: body ∧ openers.lookup w = some n ∧ ∀ v ∈ body, IsInner v

/-- The place of a clause. -/
def place : Phrase → Option Nat
  | [] => none
  | w :: _ => openers.lookup w

theorem IsClause.place_eq {n : Nat} {s : Phrase} (h : IsClause n s) : place s = some n := by
  obtain ⟨w, body, rfl, hplace, -⟩ := h
  exact hplace

theorem IsOrdinary.isInner {w : List Char} (h : IsOrdinary w) : IsInner w := by
  rw [IsInner, List.lookup_eq_none_iff]
  intro p hp
  rw [bne_iff_ne]
  rintro rfl
  exact h (List.mem_append_left _ (List.mem_map_of_mem hp))

/-! ### Dividing words into clauses -/

/-- Divides words into clauses, with the part of a clause that was read so far. -/
def clausesFrom : Phrase → Phrase → List Phrase
  | s, [] => [s]
  | s, w :: ws =>
    if IsInner w then clausesFrom (s ++ [w]) ws else s :: clausesFrom [w] ws

theorem clausesFrom_append (s body rest : Phrase) (h : ∀ v ∈ body, IsInner v) :
    clausesFrom s (body ++ rest) = clausesFrom (s ++ body) rest := by
  induction body generalizing s with
  | nil => simp
  | cons w body ih =>
      rw [List.forall_mem_cons] at h
      rw [List.cons_append, clausesFrom, if_pos h.1, ih _ h.2, List.append_assoc]
      rfl

theorem clausesFrom_flatten (s : Phrase) (ss : List Phrase)
    (h : ∀ t ∈ ss, ∃ n, IsClause n t) : clausesFrom s ss.flatten = s :: ss := by
  induction ss generalizing s with
  | nil => rfl
  | cons t ss ih =>
      rw [List.forall_mem_cons] at h
      obtain ⟨⟨n, w, body, rfl, hw, hbody⟩, hrest⟩ := h
      have hopens : ¬ IsInner w := by
        rw [IsInner, hw]
        simp
      rw [List.flatten_cons, List.cons_append, clausesFrom, if_neg hopens,
        clausesFrom_append _ _ _ hbody, ih _ hrest]
      rfl

/-- The words determine the clauses. -/
theorem clauses_unique {ss ts : List Phrase} (hss : ∀ s ∈ ss, ∃ n, IsClause n s)
    (hts : ∀ t ∈ ts, ∃ n, IsClause n t) (h : ss.flatten = ts.flatten) : ss = ts := by
  have hread : clausesFrom [] ss.flatten = clausesFrom [] ts.flatten := by
    rw [h]
  rw [clausesFrom_flatten _ _ hss, clausesFrom_flatten _ _ hts] at hread
  exact (List.cons.inj hread).2

/-- The clauses stand in the order of their places, counted from `n`. -/
def InPlaces : Nat → List (List Phrase) → Prop
  | _, [] => True
  | n, part :: parts => (∀ s ∈ part, IsClause n s) ∧ InPlaces (n + 1) parts

/-- What stands in the order of places are clauses, of the first place or a later one. -/
theorem InPlaces.isClause {n : Nat} {parts : List (List Phrase)} (h : InPlaces n parts) :
    ∀ s ∈ parts.flatten, ∃ k, n ≤ k ∧ IsClause k s := by
  induction parts generalizing n with
  | nil => simp
  | cons part parts ih =>
      obtain ⟨hpart, hparts⟩ := h
      rw [List.flatten_cons, List.forall_mem_append]
      constructor
      · exact fun s hs => ⟨n, Nat.le_refl n, hpart s hs⟩
      · intro s hs
        obtain ⟨k, hk, hclause⟩ := ih hparts s hs
        exact ⟨k, by omega, hclause⟩

/-- What stands in the first place is told by the clauses. -/
theorem InPlaces.filter_flatten {n : Nat} {part : List Phrase}
    {parts : List (List Phrase)} (h : InPlaces n (part :: parts)) :
    (part :: parts).flatten.filter (fun s => place s == some n) = part := by
  obtain ⟨hpart, hparts⟩ := h
  have hhere : part.filter (fun s => place s == some n) = part := by
    rw [List.filter_eq_self]
    intro s hs
    simpa using (hpart s hs).place_eq
  have hlater : parts.flatten.filter (fun s => place s == some n) = [] := by
    rw [List.filter_eq_nil_iff]
    intro s hs
    obtain ⟨k, hk, hclause⟩ := hparts.isClause s hs
    -- later clauses have later places
    have hne : k ≠ n := by omega
    simpa [hclause.place_eq] using hne
  rw [List.flatten_cons, List.filter_append, hhere, hlater, List.append_nil]

/-- The clauses determine what stands in each place. -/
theorem places_unique {n : Nat} {ps qs : List (List Phrase)}
    (hlength : ps.length = qs.length) (hps : InPlaces n ps) (hqs : InPlaces n qs)
    (h : ps.flatten = qs.flatten) : ps = qs := by
  induction ps generalizing n qs with
  | nil => exact (List.eq_nil_of_length_eq_zero hlength.symm).symm
  | cons p ps ih =>
      cases qs with
      | nil => cases hlength
      | cons q qs =>
          have hfirst : p = q := by
            rw [← hps.filter_flatten, h, hqs.filter_flatten]
          subst hfirst
          rw [List.flatten_cons, List.flatten_cons, List.append_cancel_left_eq] at h
          rw [ih (Nat.succ.inj hlength) hps.2 hqs.2 h]

/-- The words determine what stands in each place. -/
theorem parts_unique {n : Nat} {ps qs : List (List Phrase)}
    (hlength : ps.length = qs.length) (hps : InPlaces n ps) (hqs : InPlaces n qs)
    (h : ps.flatten.flatten = qs.flatten.flatten) : ps = qs := by
  have hclauses : ∀ {rs : List (List Phrase)}, InPlaces n rs →
      ∀ s ∈ rs.flatten, ∃ k, IsClause k s := by
    intro rs hrs s hs
    obtain ⟨k, -, hclause⟩ := hrs.isClause s hs
    exact ⟨k, hclause⟩
  exact places_unique hlength hps hqs (clauses_unique (hclauses hps) (hclauses hqs) h)

/-! ### Dividing words into conditions -/

/-- The words of a condition: its left side, and either ordinary words or a range. -/
def IsCondition (ws : Phrase) : Prop :=
  ∃ left right, ws = left :: right ∧ IsOrdinary left ∧
    ((∀ w ∈ right, IsOrdinary w) ∨
      ∃ low high, right = [ranger, low, conjoiner, high] ∧ IsOrdinary low ∧ IsOrdinary high)

/-- Conditions with the conjoining word between them. -/
def conjunction : List Phrase → Phrase
  | [] => []
  | [ws] => ws
  | ws :: rest => ws ++ conjoiner :: conjunction rest

/-- Divides words into conditions, with the part of a condition that was read so far.  The flag
tells that the next conjoining word belongs to a range. -/
def conditionsFrom : Bool → Phrase → Phrase → List Phrase
  | _, s, [] => [s]
  | inRange, s, w :: ws =>
    if w = conjoiner then
      if inRange then conditionsFrom false (s ++ [w]) ws else s :: conditionsFrom false [] ws
    else conditionsFrom (inRange || w == ranger) (s ++ [w]) ws

theorem IsOrdinary.ne_conjoiner {w : List Char} (h : IsOrdinary w) : w ≠ conjoiner := by
  rintro rfl
  exact absurd h (by decide)

theorem IsOrdinary.ne_ranger {w : List Char} (h : IsOrdinary w) : w ≠ ranger := by
  rintro rfl
  exact absurd h (by decide)

theorem IsOrdinary.ne_distinguisher {w : List Char} (h : IsOrdinary w) : w ≠ distinguisher := by
  rintro rfl
  exact absurd h (by decide)

theorem conditionsFrom_ordinary (inRange : Bool) (s ws rest : Phrase)
    (h : ∀ w ∈ ws, IsOrdinary w) :
    conditionsFrom inRange s (ws ++ rest) = conditionsFrom inRange (s ++ ws) rest := by
  induction ws generalizing s with
  | nil => simp
  | cons w ws ih =>
      rw [List.forall_mem_cons] at h
      have hranger : (w == ranger) = false := by simpa using h.1.ne_ranger
      rw [List.cons_append, conditionsFrom, if_neg h.1.ne_conjoiner, hranger, Bool.or_false,
        ih _ h.2, List.append_assoc]
      rfl

/-- A condition is taken over as a whole. -/
theorem conditionsFrom_condition {ws : Phrase} (h : IsCondition ws)
    (s rest : Phrase) :
    conditionsFrom false s (ws ++ rest) = conditionsFrom false (s ++ ws) rest := by
  obtain ⟨left, right, rfl, hleft, hright⟩ := h
  obtain hright | ⟨low, high, rfl, hlow, hhigh⟩ := hright
  · exact conditionsFrom_ordinary false s _ rest (List.forall_mem_cons.2 ⟨hleft, hright⟩)
  · -- the flag is up between `BETWEEN` and the `AND` that belongs to it
    have hne : ranger ≠ conjoiner := by decide
    have hfront := conditionsFrom_ordinary false s [left]
      (ranger :: low :: conjoiner :: high :: rest) (by simpa using hleft)
    have hlow' := conditionsFrom_ordinary true (s ++ [left] ++ [ranger]) [low]
      (conjoiner :: high :: rest) (by simpa using hlow)
    have hhigh' := conditionsFrom_ordinary false
      (s ++ [left] ++ [ranger] ++ [low] ++ [conjoiner]) [high] rest (by simpa using hhigh)
    simp only [List.cons_append, List.nil_append] at hfront hlow' hhigh' ⊢
    rw [hfront, conditionsFrom, if_neg hne, Bool.false_or, beq_self_eq_true, hlow',
      conditionsFrom, if_pos rfl, if_pos rfl, hhigh']
    simp

theorem conditionsFrom_conjunction (s : Phrase) {wss : List Phrase}
    (hne : wss ≠ []) (h : ∀ ws ∈ wss, IsCondition ws) :
    conditionsFrom false s (conjunction wss) = (s ++ wss.head hne) :: wss.tail := by
  induction wss generalizing s with
  | nil => exact absurd rfl hne
  | cons ws wss ih =>
      rw [List.forall_mem_cons] at h
      cases wss with
      | nil =>
          have hlast := conditionsFrom_condition h.1 s []
          simpa [conjunction, conditionsFrom] using hlast
      | cons vs vss =>
          have hrest := ih [] (by simp) h.2
          rw [conjunction, conditionsFrom_condition h.1, conditionsFrom, if_pos rfl]
          simpa using hrest
          simp

/-- The words determine the conditions. -/
theorem conjunction_unique {wss vss : List Phrase} (hwss : wss ≠ []) (hvss : vss ≠ [])
    (hw : ∀ ws ∈ wss, IsCondition ws) (hv : ∀ vs ∈ vss, IsCondition vs)
    (h : conjunction wss = conjunction vss) : wss = vss := by
  have hread : conditionsFrom false [] (conjunction wss) =
      conditionsFrom false [] (conjunction vss) := by
    rw [h]
  rw [conditionsFrom_conjunction [] hwss hw, conditionsFrom_conjunction [] hvss hv] at hread
  obtain ⟨hhead, htail⟩ := List.cons.inj hread
  rw [← List.cons_head_tail hwss, ← List.cons_head_tail hvss]
  simp only [List.nil_append] at hhead
  rw [hhead, htail]

/-- No word of a condition begins a clause. -/
theorem IsCondition.isInner {ws : Phrase} (h : IsCondition ws) : ∀ w ∈ ws, IsInner w := by
  obtain ⟨left, right, rfl, hleft, hright⟩ := h
  rw [List.forall_mem_cons]
  refine ⟨hleft.isInner, ?_⟩
  obtain hright | ⟨low, high, rfl, hlow, hhigh⟩ := hright
  · exact fun w hw => (hright w hw).isInner
  · have hranger : IsInner ranger := by decide
    have hconjoiner : IsInner conjoiner := by decide
    simp only [List.forall_mem_cons]
    exact ⟨hranger, hlow.isInner, hconjoiner, hhigh.isInner, by simp⟩

theorem isInner_conjunction {wss : List Phrase} (h : ∀ ws ∈ wss, IsCondition ws) :
    ∀ w ∈ conjunction wss, IsInner w := by
  induction wss with
  | nil => simp [conjunction]
  | cons ws wss ih =>
      rw [List.forall_mem_cons] at h
      cases wss with
      | nil => exact h.1.isInner
      | cons vs vss =>
          have hconjoiner : IsInner conjoiner := by decide
          rw [conjunction, List.forall_mem_append, List.forall_mem_cons]
          · exact ⟨h.1.isInner, hconjoiner, ih h.2⟩
          · simp

end AskSql.Words
