import AskSql.Proofs.Compose.Alternatives
import AskSql.Proofs.Query.Truth

/-!
# What becomes of merged alternatives

Merging puts the value of an alternative into the list of values that the condition in front of it
has, or makes such a list of its one value.  The merged condition then holds where one of the two
holds (`Condition.Lists.truth_merge`), and a condition that stands for a whole group of alternatives
holds where one of them holds (`Condition.StandsFor.truth`).

Whether an alternative may be merged is told from the operator of the condition in front, and not
from its right side.  A column or a span of time is no value that could be listed.  Behind such a
condition the alternative is dropped (`Condition.merge?_of_values?_eq_none`,
`Condition.ofParts_merged_town`): rows that only it holds of are lost.
-/

namespace AskSql

/-! ### One of several truths -/

namespace Truth

theorem or_eq_holds_iff {s t : Truth} : s.or t = .holds ↔ s = .holds ∨ t = .holds := by
  cases s <;> cases t <;> decide

theorem any_eq_holds_iff {ts : List Truth} : any ts = .holds ↔ holds ∈ ts := by
  induction ts with
  | nil => decide
  | cons t ts ih =>
      change t.or (any ts) = holds ↔ _
      rw [or_eq_holds_iff, ih, List.mem_cons, eq_comm]

theorem or_assoc (s t u : Truth) : (s.or t).or u = s.or (t.or u) := by
  cases s <;> cases t <;> cases u <;> rfl

theorem any_concat (ts : List Truth) (t : Truth) : any (ts ++ [t]) = (any ts).or t := by
  induction ts with
  | nil => exact or_fails t
  | cons s ts ih => exact (congrArg s.or ih).trans (or_assoc s _ t).symm

end Truth

/-- A column has one value, however the case of its name is written. -/
def Assignment.IgnoresCase (A : Assignment) : Prop :=
  ∀ r s : Reference, r.sameColumn s = true → A.column r = A.column s

/-- No value is equal to one that is missing. -/
theorem Assignment.relateTo_ne_holds {A : Assignment} {op : Comparison} {right : RightValue}
    (hop : op = .eq ∨ op = .isIn) (hsingle : right.single = none)
    (hchoices : right.choices = [none]) (x : Value) :
    A.relateTo (some x) op right ≠ .holds := by
  rcases hop with rfl | rfl
  · cases right with
    | null =>
        -- a comparison with null asks whether the value is missing, and it is not
        change Truth.fails ≠ .holds
        decide
    | range low high =>
        change Truth.unknown ≠ .holds
        decide
    | one | several =>
        change A.relate .eq (some x) _ ≠ .holds
        rw [hsingle]
        change Truth.unknown ≠ .holds
        decide
  · change Truth.any (right.choices.map (A.relate .eq (some x))) ≠ .holds
    rw [hchoices]
    change Truth.unknown ≠ .holds
    decide

namespace Condition

/-- The values among which the column is looked for. -/
def values? (c : Condition) : Option (List Literal) :=
  match c.rhs with
  | .literal v => some [v]
  | .list vs => some vs
  | _ => none

/-- The two sides are the same column. -/
def ComparesItself (c : Condition) : Prop :=
  ∃ r s, c.lhs = .column r ∧ c.rhs = .column s ∧ r.sameColumn s = true

/-- The condition asks whether its left side is one of these values. -/
inductive Lists : Condition → List Literal → Prop
  | one {lhs : Operand} {op : Comparison} (v : Literal) (hop : op = .eq ∨ op = .isIn) :
      Lists ⟨lhs, op, .literal v⟩ [v]
  | several (lhs : Operand) (vs : List Literal) : Lists ⟨lhs, .isIn, .list vs⟩ vs

section Merging

variable {A : Assignment} {c d merged : Condition} {vs : List Literal} {v : Literal}

theorem Lists.truth (h : c.Lists vs) :
    A.truth c = .any (vs.map fun v => A.relate .eq (A.operand c.lhs) (some v.toValue)) := by
  cases h with
  | @one lhs op v hop =>
      have hone : A.truth ⟨lhs, op, .literal v⟩ = A.relate .eq (A.operand lhs) (some v.toValue) := by
        rcases hop with rfl | rfl
        · rfl
        · exact Truth.or_fails _
      rw [hone]
      exact (Truth.or_fails _).symm
  | several lhs vs =>
      change Truth.any ((vs.map fun v => some v.toValue).map (A.relate .eq (A.operand lhs))) = _
      rw [List.map_map]
      rfl

/-- A condition that compares with one value. -/
theorem truth_of_literal? (hop : d.op = .eq ∨ d.op = .isIn) (hv : d.literal? = some v) :
    A.truth d = A.relate .eq (A.operand d.lhs) (some v.toValue) := by
  obtain ⟨lhs, op, rhs⟩ := d
  obtain rfl : rhs = .literal v := by
    unfold literal? at hv
    split at hv
    · next heq => exact heq.trans (congrArg _ (Option.some.inj hv))
    · cases hv
  exact (Lists.one v hop).truth.trans (Truth.or_fails _)

theorem OnSameColumn.operand_eq (h : c.OnSameColumn d) (hA : A.IgnoresCase) :
    A.operand c.lhs = A.operand d.lhs := by
  have hcolumn {c : Condition} {r : Reference} (h : c.leftColumn? = some r) :
      A.operand c.lhs = A.column r := by
    unfold leftColumn? at h
    split at h
    · next heq => rw [heq, ← Option.some.inj h, Assignment.operand]
    · cases h
  obtain ⟨r, s, hr, hs, hsame⟩ := h
  rw [hcolumn hr, hcolumn hs, hA r s hsame]

theorem Lists.withAlternative (h : c.Lists vs) (v : Literal) :
    (c.withAlternative v).Lists (vs ++ [v]) ∧ (c.withAlternative v).lhs = c.lhs := by
  cases h with
  | one first hop => exact ⟨.several _ _, rfl⟩
  | several lhs vs => exact ⟨.several _ _, rfl⟩

/-- What is merged with a list of values holds where one of the two conditions holds. -/
theorem Lists.truth_merge (h : c.Lists vs) (hmerge : c.merge? d = some merged)
    (hA : A.IgnoresCase) : A.truth merged = (A.truth c).or (A.truth d) := by
  obtain ⟨hsame, -, hnext, v, hv, rfl⟩ := merge?_eq_some hmerge
  obtain ⟨hmore, hlhs⟩ := h.withAlternative v
  rw [hmore.truth, h.truth, truth_of_literal? (.inl hnext) hv, hlhs, List.map_append,
    List.map_singleton, Truth.any_concat, hsame.operand_eq hA]

theorem merge?_of_isMergeable (h : c.isMergeable d = true) : ∃ merged, c.merge? d = some merged := by
  unfold merge?
  rw [if_pos h]
  simp only [isMergeable, Bool.and_eq_true] at h
  obtain ⟨v, hv⟩ := Option.isSome_iff_exists.1 h.2
  exact ⟨_, by rw [hv]; rfl⟩

theorem withAlternative_of_values?_eq_none (h : c.values? = none) (v : Literal) :
    c.withAlternative v = c := by
  unfold withAlternative
  split
  · next hrhs => simp [values?, hrhs] at h
  · next hrhs => simp [values?, hrhs] at h
  · rfl

/-- A row on which a column is one value and all other columns are missing, where other values than
those of one type are taken to be the same. -/
def onlyColumn (r : Reference) (x : Value) : Assignment where
  column s := if r.sameColumn s then some x else none
  aggregate _ := none
  month _ := none
  day _ := none
  rows _ := [none]
  across _ _ := .ordered .eq
  fits _ _ _ := .unknown
  rows_congr _ _ _ := rfl

theorem onlyColumn_ignoresCase (r : Reference) (x : Value) : (onlyColumn r x).IgnoresCase := by
  intro s t hst
  have hiff : r.sameColumn s = r.sameColumn t := by
    rw [Bool.eq_iff_iff]
    exact ⟨fun h => Reference.sameColumn_trans h hst, fun h =>
      Reference.sameColumn_trans h (Reference.sameColumn_comm s t ▸ hst)⟩
  simp only [onlyColumn, hiff]

theorem onlyColumn_relate_self (r : Reference) (x : Value) :
    (onlyColumn r x).relate .eq (some x) (some x) = .holds := by
  cases x <;> simp [Assignment.relate, Assignment.compare, Outcome.truth, Outcome.same,
    Truth.ofBool, onlyColumn]

/-- An alternative that is merged with a condition without values is dropped, and so are the rows
that only the alternative holds of. -/
theorem merge?_of_values?_eq_none (hvalues : c.values? = none) (hmerge : c.merge? d = some merged) :
    merged = c ∧ (c.ComparesItself ∨
      ∃ A : Assignment, A.IgnoresCase ∧ A.truth d = .holds ∧ A.truth merged ≠ .holds) := by
  obtain ⟨hsame, hop, hnext, v, hv, rfl⟩ := merge?_eq_some hmerge
  obtain ⟨r, s, hr, hs, hrs⟩ := hsame
  obtain ⟨lhs, op, rhs⟩ := c
  obtain rfl : lhs = .column r := by
    unfold leftColumn? at hr
    split at hr
    · next heq => exact heq.trans (congrArg _ (Option.some.inj hr))
    · cases hr
  have hkept : (⟨.column r, op, rhs⟩ : Condition).withAlternative v = ⟨.column r, op, rhs⟩ :=
    withAlternative_of_values?_eq_none hvalues v
  refine ⟨hkept, or_iff_not_imp_left.2 fun hitself => ?_⟩
  have hA := onlyColumn_ignoresCase r v.toValue
  refine ⟨onlyColumn r v.toValue, hA, ?_, ?_⟩
  · -- the value of the column is the one that the alternative asks for
    have hcolumn : (onlyColumn r v.toValue).operand d.lhs = some v.toValue := by
      have hdr : (⟨.column r, op, rhs⟩ : Condition).OnSameColumn d := ⟨r, s, hr, hs, hrs⟩
      rw [← hdr.operand_eq hA]
      simp [Assignment.operand, onlyColumn]
    rw [truth_of_literal? (.inl hnext) hv, hcolumn, onlyColumn_relate_self]
  · -- what the condition itself compares it with is missing
    rw [hkept]
    have hx : (onlyColumn r v.toValue).operand (.column r) = some v.toValue := by
      simp [Assignment.operand, onlyColumn]
    rw [Assignment.truth, hx]
    cases rhs with
    | literal | list => cases hvalues
    | column s =>
        have hs : r.sameColumn s = false :=
          Bool.eq_false_iff.2 fun hsame => hitself ⟨r, s, rfl, rfl, hsame⟩
        have hmissing : (onlyColumn r v.toValue).comparand (.column s) = .one none := by
          simp [Assignment.comparand, onlyColumn, hs]
        rw [hmissing]
        exact Assignment.relateTo_ne_holds hop rfl rfl _
    | daysAgo n => exact Assignment.relateTo_ne_holds hop rfl rfl _
    | range low high => exact Assignment.relateTo_ne_holds hop rfl rfl _
    | null => exact Assignment.relateTo_ne_holds hop rfl rfl _
    | subquery q => exact Assignment.relateTo_ne_holds hop rfl rfl _

theorem lists_of_values? (h : c.values? = some vs) (hop : c.op = .eq ∨ c.op = .isIn)
    (hlist : ∀ vs, c.rhs = .list vs → c.op = .isIn) : c.Lists vs := by
  obtain ⟨lhs, op, rhs⟩ := c
  unfold values? at h
  split at h
  · next v hrhs =>
      obtain rfl := Option.some.inj h
      obtain rfl : rhs = .literal v := hrhs
      exact .one v hop
  · next vs' hrhs =>
      obtain rfl := Option.some.inj h
      obtain rfl : rhs = .list vs' := hrhs
      obtain rfl : op = .isIn := hlist vs' rfl
      exact .several lhs vs'
  · cases h

/-- What a merged condition keeps of the two that were merged. -/
structure Merges (c d merged : Condition) : Prop where
  /-- Merged with values, it holds of the rows that one of the two holds of. -/
  kept : ∀ vs, c.values? = some vs → ∀ A : Assignment, A.IgnoresCase →
    (A.truth merged = .holds ↔ A.truth c = .holds ∨ A.truth d = .holds)
  /-- Otherwise it is the first one, and the second one is lost. -/
  lost : c.values? = none → merged = c ∧ (c.ComparesItself ∨
    ∃ A : Assignment, A.IgnoresCase ∧ A.truth d = .holds ∧ A.truth merged ≠ .holds)

theorem merges_of_merge? (hmerge : c.merge? d = some merged)
    (hlist : ∀ vs, c.rhs = .list vs → c.op = .isIn) : c.Merges d merged where
  kept vs hvalues A hA := by
    obtain ⟨-, hop, -⟩ := merge?_eq_some hmerge
    rw [(lists_of_values? hvalues hop hlist).truth_merge hmerge hA, Truth.or_eq_holds_iff]
  lost hvalues := merge?_of_values?_eq_none hvalues hmerge

end Merging

/-! ### Groups of alternatives -/

section Groups

variable {c : Condition} {group : List MadeOut}

theorem StandsFor.isIn_of_list (h : c.StandsFor group)
    (hsingle : ∀ m ∈ group, ∀ vs, m.condition.rhs ≠ .list vs) (vs : List Literal)
    (hrhs : c.rhs = .list vs) : c.op = .isIn := by
  cases h with
  | alone m => exact absurd hrhs (hsingle m List.mem_cons_self vs)
  | oneOf hop => exact hop
  | first m others => exact absurd hrhs (hsingle m List.mem_cons_self vs)

/-- No alternative is lost where there is one only, or where the first one compares with a value. -/
theorem StandsFor.truth {A : Assignment} (h : c.StandsFor group) (hA : A.IgnoresCase)
    (hkept : group.length = 1 ∨ ∃ m ∈ group.head?, m.condition.literal?.isSome = true) :
    A.truth c = .any (group.map fun m => A.truth m.condition) := by
  cases h with
  | alone m => exact (Truth.or_fails _).symm
  | @oneOf _ _ values hop hrhs hvalues hcolumn hops =>
      obtain ⟨lhs, op, rhs⟩ := c
      obtain rfl : op = .isIn := hop
      obtain rfl : rhs = .list values := hrhs
      -- the truth of each alternative is told by its value
      let told (v : Option Literal) : Truth :=
        v.elim .unknown fun v => A.relate .eq (A.operand lhs) (some v.toValue)
      have hmember : ∀ m ∈ group, A.truth m.condition = told m.condition.literal? := by
        intro m hm
        have hmem : m.condition.literal? ∈ values.map some :=
          hvalues ▸ List.mem_map_of_mem hm
        obtain ⟨v, -, hv⟩ := List.mem_map.1 hmem
        rw [truth_of_literal? (hops m hm) hv.symm, ← (hcolumn m hm).operand_eq hA, ← hv]
        rfl
      rw [(Lists.several lhs values).truth, List.map_congr_left hmember]
      have htold : (group.map fun m => told m.condition.literal?) = (values.map some).map told := by
        rw [← hvalues, List.map_map]
        rfl
      rw [htold, List.map_map]
      rfl
  | first m others hnone =>
      obtain hone | ⟨m', hm', hsome⟩ := hkept
      · obtain rfl : others = [] := List.length_eq_zero_iff.1 (Nat.succ.inj hone)
        exact (Truth.or_fails _).symm
      · obtain rfl : m = m' := Option.some.inj hm'
        rw [hnone] at hsome
        cases hsome

/-- What a condition keeps of a group of alternatives. -/
structure Gathers (c : Condition) (group : List MadeOut) : Prop where
  /-- It holds of the rows that one of them holds of, if there is one only or if the first one
  compares with a value. -/
  kept : (group.length = 1 ∨ ∃ m ∈ group.head?, m.condition.literal?.isSome = true) →
    ∀ A : Assignment, A.IgnoresCase →
      (A.truth c = .holds ↔ ∃ m ∈ group, A.truth m.condition = .holds)
  /-- If the first one compares with no value, it is the condition of the first one. -/
  lost : ∀ m ∈ group.head?, m.condition.literal? = none → c = m.condition

theorem StandsFor.gathers (h : c.StandsFor group) : c.Gathers group where
  kept hkept A hA := by
    rw [h.truth hA hkept, Truth.any_eq_holds_iff, List.mem_map]
  lost m hm hnone := by
    cases h with
    | alone m' => rw [Option.some.inj hm]
    | first m' others => rw [Option.some.inj hm]
    | @oneOf _ _ values _ _ hvalues =>
        have hmem : m.condition.literal? ∈ values.map some :=
          hvalues ▸ List.mem_map_of_mem (List.mem_of_mem_head? hm)
        obtain ⟨v, -, hv⟩ := List.mem_map.1 hmem
        rw [hnone] at hv
        cases hv

end Groups

/-! ### The run -/

section Running

variable {s : Schema} {t t' u : JoinTree} {parts : List ConditionPart} {part : ConditionPart}
  {cs cs' : List Condition} {c d merged : Condition}

/-- More comparisons go on from what is left by those in front of them. -/
theorem ofParts_append (h : ofParts s cs t parts = .ok (cs', t')) (more : List ConditionPart) :
    ofParts s cs t (parts ++ more) = ofParts s cs' t' more := by
  induction parts generalizing cs t with
  | nil =>
      obtain ⟨rfl, rfl⟩ := Prod.mk.inj (Except.ok.inj h)
      rfl
  | cons part parts ih =>
      rw [ofParts] at h
      rw [List.cons_append, ofParts]
      split at h
      · exact ih h
      · obtain ⟨next, hadd, hrest⟩ := (Failure.bind_eq_ok_iff _ _ _).1 h
        rw [hadd]
        exact ih hrest

/-- An alternative that can be merged with the last condition takes its place. -/
theorem ofParts_alternative (hor : part.isModified "or" = true)
    (hcondition : part.condition s t = (some d, u)) (hlast : cs.getLast? = some c)
    (hmerge : c.merge? d = some merged) :
    ofParts s cs t [part] = .ok (cs.dropLast ++ [merged], u) := by
  have hadd : add cs part d = .ok (cs.dropLast ++ [merged]) := by
    rw [add, if_pos hor, hlast, Option.bind_some, hmerge]
  rw [ofParts, hcondition]
  change (add cs part d >>= fun cs => ofParts s cs u []) = _
  rw [hadd]
  rfl

/-- The comparisons of any question, on any schema and join tree, that were made out into conditions.
Each condition gathers a group of alternatives.  One alternative more that can be merged with the
last condition is merged with it: the two are kept where the last condition has values, and
otherwise the alternative is lost. -/
theorem ofParts_merged (hrun : ofParts s [] t parts = .ok (cs, t')) :
    List.Forall₂ Gathers cs (MadeOut.alternatives (MadeOut.ofParts s t 0 parts)) ∧
      ∀ (c d : Condition) (part : ConditionPart) (u : JoinTree), cs.getLast? = some c →
        part.isModified "or" = true → part.condition s t' = (some d, u) →
        c.isMergeable d = true →
          ∃ merged, ofParts s [] t (parts ++ [part]) = .ok (cs.dropLast ++ [merged], u) ∧
            c.Merges d merged := by
  rcases ofParts_stand s stand_nil t 0 parts with ⟨_, -, -, hrefused⟩ | ⟨cs', u', hok, hstand⟩
  · rw [hrun] at hrefused
    cases hrefused
  rw [hrun] at hok
  obtain ⟨rfl, rfl⟩ := Prod.mk.inj (Except.ok.inj hok)
  refine ⟨hstand.stand.imp fun c group h => h.gathers, ?_⟩
  intro c d part u hlast hor hcondition hmergeable
  obtain ⟨merged, hmerge⟩ := merge?_of_isMergeable hmergeable
  refine ⟨merged, ?_, merges_of_merge? hmerge ?_⟩
  · rw [ofParts_append hrun, ofParts_alternative hor hcondition hlast hmerge]
  · -- a list on the right side came about by merging
    obtain ⟨front, rfl⟩ := List.getLast?_eq_some_iff.1 hlast
    obtain ⟨groups, group, -, hgroup, hgroups⟩ := forall₂_concat_left hstand.stand
    refine hgroup.isIn_of_list fun m hm => hstand.single m ?_
    rw [← MadeOut.flatten_alternatives ([] ++ MadeOut.ofParts s t 0 parts), hgroups]
    exact List.mem_flatten.2 ⟨group, List.mem_append_right _ List.mem_cons_self, hm⟩

end Running

/-- A comparison of the state of an order with a value or a column. -/
def statePart (value : String) (kind : EntityKind) (modifier : Option String) : ConditionPart where
  column := some "status"
  table := some "orders"
  operator := "="
  value := some value
  valueKind := some kind
  high := none
  modifier

/-- The state of an order is this. -/
def stateIs (rhs : Comparand) : Condition :=
  ⟨.column ⟨"orders", "status", none⟩, .eq, rhs⟩

/-- The column is found in the table of the query. -/
theorem column?_statePart (value : String) (kind : EntityKind) (modifier : Option String) :
    (statePart value kind modifier).column? stateOrders (.ofBase "orders") =
      some (⟨"orders", "status", none⟩, .ofBase "orders") := by
  rfl

theorem condition_statePart (value : String) (modifier : Option String)
    (hmodifier : (modifier == some "not") = false) :
    (statePart value .string modifier).condition stateOrders (.ofBase "orders") =
      (some (stateIs (.literal (.text value))), .ofBase "orders") :=
  ConditionPart.condition_eq_some_iff.2
    ⟨.eq, _, .ofBase "orders", value, .string, .eq, _, rfl, column?_statePart _ _ _, rfl, rfl, rfl,
      by simp [stateIs, ConditionPart.effective, ConditionPart.isModified, statePart, hmodifier,
        Literal.ofValue]⟩

/-- Paid or open or sent: all three are in the list. -/
theorem ofParts_merged_states :
    let t := JoinTree.ofBase "orders"
    let parts := [statePart "paid" .string none, statePart "open" .string (some "or")]
    let c : Condition :=
      ⟨.column ⟨"orders", "status", none⟩, .isIn, .list [.text "paid", .text "open"]⟩
    let d := stateIs (.literal (.text "sent"))
    ofParts stateOrders [] t parts = .ok ([c], t) ∧ c.isMergeable d = true ∧
      ∃ merged, ofParts stateOrders [] t (parts ++ [statePart "sent" .string (some "or")]) =
          .ok ([merged], t) ∧ c.Merges d merged := by
  intro t parts c d
  have hfirst : ofParts stateOrders [] t [statePart "paid" .string none] =
      .ok ([stateIs (.literal (.text "paid"))], t) :=
    (ofParts_singleton rfl).2 (condition_statePart "paid" none rfl)
  have hrun : ofParts stateOrders [] t parts = .ok ([c], t) :=
    (ofParts_append hfirst _).trans
      (ofParts_alternative rfl (condition_statePart "open" (some "or") rfl) rfl rfl)
  refine ⟨hrun, rfl, ?_⟩
  exact (ofParts_merged hrun).2 c d _ t rfl rfl (condition_statePart "sent" (some "or") rfl) rfl

theorem comparison?_town (part : ConditionPart) :
    part.comparison? stateOrders (.ofBase "orders") .eq "town" .column =
      some ((.eq, .column ⟨"orders", "town", none⟩), .ofBase "orders") := by
  have hcolumn : Mention.resolveColumn? stateOrders (.ofBase "orders") "town" =
      some (⟨"orders", "town", none⟩, .ofBase "orders") := by
    rfl
  rw [ConditionPart.comparison?, hcolumn]
  rfl

/-- The state is the town, or it is paid: the second one can be merged, and is lost.  Some order
that is paid does not satisfy what is left. -/
theorem ofParts_merged_town :
    let t := JoinTree.ofBase "orders"
    let town := statePart "town" .column none
    let paid := statePart "paid" .string (some "or")
    let c := stateIs (.column ⟨"orders", "town", none⟩)
    let d := stateIs (.literal (.text "paid"))
    ofParts stateOrders [] t [town] = .ok ([c], t) ∧
      paid.condition stateOrders t = (some d, t) ∧ c.isMergeable d = true ∧
      ofParts stateOrders [] t [town, paid] = .ok ([c], t) ∧
      ∃ A : Assignment, A.IgnoresCase ∧ A.truth d = .holds ∧ A.truth c ≠ .holds := by
  intro t town paid c d
  have hcolumn : town.condition stateOrders t = (some c, t) :=
    ConditionPart.condition_eq_some_iff.2
      ⟨.eq, _, t, "town", .column, .eq, _, rfl, column?_statePart _ _ _, rfl, rfl,
        comparison?_town _, rfl⟩
  have hpaid : paid.condition stateOrders t = (some d, t) := condition_statePart "paid" _ rfl
  have hfirst : ofParts stateOrders [] t [town] = .ok ([c], t) := (ofParts_singleton rfl).2 hcolumn
  have hmerge : c.merge? d = some c := rfl
  have hother : ¬ c.ComparesItself := by
    rintro ⟨r, s, hr, hs, hsame⟩
    obtain rfl := Operand.column.inj hr
    obtain rfl := Comparand.column.inj hs
    exact absurd hsame (by decide)
  exact ⟨hfirst, hpaid, rfl,
    (ofParts_append hfirst _).trans (ofParts_alternative rfl hpaid rfl hmerge),
    (merge?_of_values?_eq_none rfl hmerge).2.resolve_left hother⟩

end Condition

end AskSql
