import AskSql.Compose.Conditions

/-!
# What the comparisons of a question become

A comparison of a question becomes a test for null, a comparison with one value, or a range, as the
kind of its value says (`Comparison.Becomes`).  The condition that is made of it has this form
(`ConditionPart.becomes_of_comparison?`, `ConditionPart.condition_eq_some_iff`).
-/

namespace AskSql

/-- The right side is one value. -/
def Comparand.IsSingle : Comparand → Prop
  | .literal _ | .daysAgo _ | .column _ => True
  | _ => False

/-- The comparison and the right side that a comparison of a question becomes, by the kind of its
value. -/
inductive Comparison.Becomes : Comparison → EntityKind → Comparison → Comparand → Prop
  | isNull (op : Comparison) : Becomes op .null .isNull .null
  | isNotNull : Becomes .notEq .null .isNotNull .null
  | single {op : Comparison} {kind : EntityKind} {rhs : Comparand} (hkind : kind ≠ .null)
      (hrhs : rhs.IsSingle) : Becomes op kind op rhs
  | range {kind : EntityKind} (hkind : kind ≠ .null) (low high : Literal) :
      Becomes .between kind .between (.range low high)

/-- The comparisons that a question can ask for. -/
theorem Comparison.lookup_symbols {symbol : String} {op : Comparison}
    (h : symbols.lookup symbol = some op) :
    op ≠ .iLike ∧ (op = .between ↔ symbol = "between") := by
  have hall : ∀ p ∈ symbols, p.2 ≠ .iLike ∧ (p.2 = .between ↔ p.1 = "between") := by decide
  obtain ⟨before, after, hsplit, -⟩ := List.lookup_eq_some_iff.1 h
  exact hall (symbol, op) (hsplit ▸ List.mem_append_right _ List.mem_cons_self)

section Forms

variable {op op' : Comparison} {kind : EntityKind} {rhs : Comparand} {s : Schema}
  {t t' : JoinTree} {part : ConditionPart} {c : Condition}

theorem Comparison.Becomes.ne_iLike (h : op.Becomes kind op' rhs) (hlike : op ≠ .iLike) :
    op' ≠ .iLike := by
  cases h with
  | isNull => decide
  | isNotNull => decide
  | single => exact hlike
  | range => decide

theorem Comparison.Becomes.eq_between_iff (h : op.Becomes kind op' rhs) :
    op' = .between ↔ op = .between ∧ kind ≠ .null := by
  cases h with
  | isNull => simp
  | isNotNull => simp
  | single hkind => simp [hkind]
  | range hkind => simp [hkind]

theorem Comparison.Becomes.ne_list (h : op.Becomes kind op' rhs) (values : List Literal) :
    rhs ≠ .list values := by
  rintro rfl
  cases h with
  | single _ hrhs => cases hrhs

theorem ConditionPart.becomes_of_comparison? {value : String}
    (h : part.comparison? s t op value kind = some ((op', rhs), t')) :
    op.Becomes kind op' rhs := by
  unfold comparison? at h
  -- by the kind of the value: null, a span of time, a column, and all others
  split at h
  · obtain ⟨hpair, -⟩ := Prod.mk.inj (Option.some.inj h)
    obtain ⟨hop, rfl⟩ := Prod.mk.inj hpair
    split at hop
    · next heq =>
        rw [← hop, eq_of_beq heq]
        exact .isNotNull
    · rw [← hop]
      exact .isNull op
  · obtain ⟨days, -, heq⟩ := Option.map_eq_some_iff.1 h
    obtain ⟨rfl, rfl⟩ := Prod.mk.inj (Prod.mk.inj heq).1
    exact .single (by decide) trivial
  · obtain ⟨_, -, heq⟩ := Option.map_eq_some_iff.1 h
    obtain ⟨rfl, rfl⟩ := Prod.mk.inj (Prod.mk.inj heq).1
    exact .single (by decide) trivial
  · next hnull _ _ =>
      obtain ⟨rhs', hrhs, heq⟩ := Option.map_eq_some_iff.1 h
      obtain ⟨rfl, rfl⟩ := Prod.mk.inj (Prod.mk.inj heq).1
      unfold comparand? at hrhs
      split at hrhs
      · obtain ⟨high, -, rfl⟩ := Option.map_eq_some_iff.1 hrhs
        exact .range hnull _ _
      · obtain rfl := Option.some.inj hrhs
        exact .single hnull trivial
      · obtain rfl := Option.some.inj hrhs
        exact .single hnull trivial
      · obtain rfl := Option.some.inj hrhs
        exact .single hnull trivial

/-- The parts of a condition that was made out. -/
theorem ConditionPart.condition_eq_some_iff :
    part.condition s t = (some c, t') ↔
      ∃ op column u value kind op' rhs, Comparison.symbols.lookup part.operator = some op ∧
        part.column? s t = some (column, u) ∧ part.value = some value ∧
        part.valueKind = some kind ∧
        part.comparison? s u op value kind = some ((op', rhs), t') ∧
        c = ⟨.column column, part.effective op', rhs⟩ := by
  constructor
  · intro h
    unfold condition at h
    split at h
    · next op column u hop hcolumn =>
        unfold JoinTree.attempt at h
        split at h
        · next hfound =>
            obtain ⟨hc, rfl⟩ := Prod.mk.inj h
            obtain rfl := Option.some.inj hc
            obtain ⟨value, hvalue, hfound⟩ := Option.bind_eq_some_iff.1 hfound
            obtain ⟨kind, hkind, hfound⟩ := Option.bind_eq_some_iff.1 hfound
            obtain ⟨⟨⟨op', rhs⟩, _⟩, hcomparison, hfound⟩ := Option.bind_eq_some_iff.1 hfound
            obtain ⟨rfl, rfl⟩ := Prod.mk.inj (Option.some.inj hfound)
            exact ⟨op, column, u, value, kind, op', rhs, hop, hcolumn, hvalue, hkind,
              hcomparison, rfl⟩
        · cases h
    · cases h
  · rintro ⟨op, column, u, value, kind, op', rhs, hop, hcolumn, hvalue, hkind, hcomparison, rfl⟩
    simp [condition, JoinTree.attempt, hop, hcolumn, hvalue, hkind, hcomparison]

/-- A single comparison that is no alternative becomes what was made out of it. -/
theorem Condition.ofParts_singleton (hor : part.isModified "or" = false) :
    ofParts s [] t [part] = .ok ([c], t') ↔ part.condition s t = (some c, t') := by
  obtain ⟨⟨found, u⟩, hcondition⟩ : ∃ p, part.condition s t = p := ⟨_, rfl⟩
  rw [ofParts, hcondition]
  cases found with
  | none => simp [ofParts]
  | some d => simp [ofParts, add, hor, bind, Except.bind]

end Forms

end AskSql
