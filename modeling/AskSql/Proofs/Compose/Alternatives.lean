import AskSql.Proofs.Compose.Conditions
import AskSql.Proofs.Query.Scope
import Mathlib.Data.List.Induction
import Mathlib.Data.List.Nodup
import Mathlib.Tactic.ByContra

/-!
# Alternatives in a question

All conditions of a query have to hold.  An alternative is therefore merged with the condition in
front of it, or else refused.  What counts as an alternative is decided by one word: the last of
`and`, `or` and `not` between a comparison and the one in front of it.

`MadeOut.alternatives` puts the comparisons that were made out into groups, a new one at each
comparison that is no alternative.  Each condition of the query stands for one group
(`Condition.ofParts_stand`): for its only member, for a list of values, or for its first member
alone, where the value of this one is a column or a span of time and cannot be put into a list.

Two comparisons that follow each other come into one group if and only if `or` is the last of these
words between them (`Condition.ofParts_alternatives`).  So behind `or not` the second one becomes a
condition of its own, which has to hold as well (`Condition.ofParts_alternatives_unmerged`).
-/

namespace AskSql

/-- A comparison of a question whose parts were made out. -/
structure MadeOut where
  /-- Its place among all comparisons of the question. -/
  number : Nat
  part : ConditionPart
  condition : Condition

namespace MadeOut

/-- The comparison is an alternative to what is in front of it. -/
def isAlternative (m : MadeOut) : Bool :=
  m.part.isModified "or"

/-- The comparisons that can be made out, numbered from `n` on, each on the join tree that is left
by those in front of it. -/
def ofParts (s : Schema) : JoinTree → Nat → List ConditionPart → List MadeOut
  | _, _, [] => []
  | t, n, part :: parts =>
    match part.condition s t with
    | (none, t) => ofParts s t (n + 1) parts
    | (some c, t) => ⟨n, part, c⟩ :: ofParts s t (n + 1) parts

/-- An alternative goes with the last group, and any other comparison makes a new one. -/
def attach (groups : List (List MadeOut)) (m : MadeOut) : List (List MadeOut) :=
  match m.isAlternative, groups.getLast? with
  | true, some group => groups.dropLast ++ [group ++ [m]]
  | _, _ => groups ++ [[m]]

/-- The comparisons in groups of alternatives. -/
def alternatives (ms : List MadeOut) : List (List MadeOut) :=
  ms.foldl attach []

section Groups

variable {groups : List (List MadeOut)} {ms : List MadeOut} {m x y : MadeOut}

theorem attach_of_alternative {front : List (List MadeOut)} {group : List MadeOut}
    (h : m.isAlternative = true) :
    attach (front ++ [group]) m = front ++ [group ++ [m]] := by
  rw [attach, h, List.getLast?_concat, List.dropLast_concat]

theorem attach_of_not_alternative (h : m.isAlternative = false) :
    attach groups m = groups ++ [[m]] := by
  rw [attach, h]

theorem attach_nil (m : MadeOut) : attach [] m = [[m]] := by
  rw [attach]
  cases m.isAlternative <;> rfl

theorem alternatives_concat (ms : List MadeOut) (m : MadeOut) :
    alternatives (ms ++ [m]) = attach (alternatives ms) m := by
  rw [alternatives, List.foldl_append, List.foldl_cons, List.foldl_nil, ← alternatives]

theorem flatten_attach (groups : List (List MadeOut)) (m : MadeOut) :
    (attach groups m).flatten = groups.flatten ++ [m] := by
  rcases List.eq_nil_or_concat' groups with rfl | ⟨front, group, rfl⟩
  · rw [attach_nil]
    rfl
  · cases h : m.isAlternative with
    | true => simp [attach_of_alternative h]
    | false => simp [attach_of_not_alternative h]

/-- No comparison is lost in a group, and none is added. -/
theorem flatten_alternatives (ms : List MadeOut) : (alternatives ms).flatten = ms := by
  induction ms using List.reverseRecOn with
  | nil => rfl
  | append_singleton ms m ih => rw [alternatives_concat, flatten_attach, ih]

/-- Two comparisons are in one group. -/
def Together (groups : List (List MadeOut)) (x y : MadeOut) : Prop :=
  ∃ group ∈ groups, x ∈ group ∧ y ∈ group

/-- A third comparison changes nothing between two others. -/
theorem together_attach (hx : x ≠ m) (hy : y ≠ m) :
    Together (attach groups m) x y ↔ Together groups x y := by
  rcases List.eq_nil_or_concat' groups with rfl | ⟨front, group, rfl⟩
  · simp [attach_nil, Together, hx]
  · cases h : m.isAlternative with
    | true => simp [attach_of_alternative h, Together, hx, hy, or_and_right, exists_or]
    | false => simp [attach_of_not_alternative h, Together, hx, or_and_right, exists_or]

theorem together_foldl_attach {groups : List (List MadeOut)} (hx : x ∉ ms) (hy : y ∉ ms) :
    Together (ms.foldl attach groups) x y ↔ Together groups x y := by
  induction ms generalizing groups with
  | nil => exact Iff.rfl
  | cons m ms ih =>
      rw [List.mem_cons, not_or] at hx hy
      rw [List.foldl_cons, ih hx.2 hy.2, together_attach hx.1 hy.1]

/-- Of two comparisons that follow each other, the second one goes with the first one if it is an
alternative. -/
theorem together_alternatives_iff {before after : List MadeOut}
    (hnodup : (before ++ x :: y :: after).Nodup) :
    Together (alternatives (before ++ x :: y :: after)) x y ↔ y.isAlternative = true := by
  have hsplit : before ++ x :: y :: after = before ++ [x] ++ [y] ++ after := by simp
  rw [hsplit] at hnodup ⊢
  have hafter := List.disjoint_of_nodup_append hnodup
  have hx : x ∉ after := fun h => hafter (by simp) h
  have hy : y ∉ after := fun h => hafter (by simp) h
  have hnew : y ∉ before ++ [x] := fun h =>
    List.disjoint_of_nodup_append (List.Nodup.of_append_left hnodup) h List.mem_cons_self
  have hfold : alternatives (before ++ [x] ++ [y] ++ after) =
      after.foldl attach (attach (alternatives (before ++ [x])) y) := by
    rw [alternatives, List.foldl_append, ← alternatives, alternatives_concat]
  rw [hfold, together_foldl_attach hx hy]
  have hflatten := flatten_alternatives (before ++ [x])
  constructor
  -- a comparison that is no alternative is alone in a new group, and is in no earlier one
  · rintro ⟨group, hgroup, hxg, hyg⟩
    by_contra hno
    rw [attach_of_not_alternative (Bool.eq_false_iff.2 hno)] at hgroup
    rcases List.mem_append.1 hgroup with hgroup | hgroup
    · refine hnew ?_
      rw [← hflatten]
      exact List.mem_flatten.2 ⟨group, hgroup, hyg⟩
    · rw [List.mem_singleton.1 hgroup] at hxg
      refine hnew (List.mem_append_right _ ?_)
      rw [List.mem_singleton.1 hxg]
      exact List.mem_cons_self
  -- the first one is in the last group by then, and an alternative goes there
  · intro hyes
    obtain ⟨front, group, hgroups, hlast⟩ : ∃ front group,
        alternatives (before ++ [x]) = front ++ [group] ∧ x ∈ group := by
      rw [alternatives_concat, attach]
      split
      · exact ⟨_, _, rfl, List.mem_append_right _ List.mem_cons_self⟩
      · exact ⟨_, _, rfl, List.mem_cons_self⟩
    rw [hgroups, attach_of_alternative hyes]
    exact ⟨group ++ [y], List.mem_append_right _ List.mem_cons_self,
      List.mem_append_left _ hlast, List.mem_append_right _ List.mem_cons_self⟩

end Groups

section Numbers

variable {s : Schema} {t : JoinTree} {n : Nat} {parts : List ConditionPart} {m : MadeOut}

/-- A comparison that was made out has the number of its place. -/
theorem part_of_mem_ofParts (h : m ∈ ofParts s t n parts) :
    ∃ i, m.number = n + i ∧ parts[i]? = some m.part := by
  induction parts generalizing t n with
  | nil => cases h
  | cons part parts ih =>
      have hlater {t : JoinTree} (h : m ∈ ofParts s t (n + 1) parts) :
          ∃ i, m.number = n + i ∧ (part :: parts)[i]? = some m.part := by
        obtain ⟨i, hnumber, hpart⟩ := ih h
        exact ⟨i + 1, by omega, hpart⟩
      rw [ofParts] at h
      split at h
      · exact hlater h
      · rcases List.mem_cons.1 h with rfl | h
        · exact ⟨0, rfl, rfl⟩
        · exact hlater h

theorem le_number_of_mem_ofParts (h : m ∈ ofParts s t n parts) : n ≤ m.number := by
  obtain ⟨i, hnumber, -⟩ := part_of_mem_ofParts h
  omega

/-- The comparisons come in the order of their numbers. -/
theorem pairwise_ofParts (s : Schema) (t : JoinTree) (n : Nat) (parts : List ConditionPart) :
    (ofParts s t n parts).Pairwise fun x y => x.number < y.number := by
  induction parts generalizing t n with
  | nil => exact .nil
  | cons part parts ih =>
      rw [ofParts]
      split
      · exact ih _ _
      · exact List.Pairwise.cons (fun m hm => le_number_of_mem_ofParts hm) (ih _ _)

/-- Nothing comes between two members that have consecutive numbers. -/
theorem split_of_number_succ {ms : List MadeOut} {x y : MadeOut}
    (h : ms.Pairwise fun x y => x.number < y.number) (hx : x ∈ ms) (hy : y ∈ ms)
    (hnext : y.number = x.number + 1) : ∃ before after, ms = before ++ x :: y :: after := by
  obtain ⟨before, after, rfl⟩ := List.append_of_mem hx
  obtain ⟨-, hafter, hbefore⟩ := List.pairwise_append.1 h
  obtain ⟨hbehind, hsorted⟩ := List.pairwise_cons.1 hafter
  have hmem : y ∈ after := by
    rcases List.mem_append.1 hy with hy | hy
    · have := hbefore y hy x List.mem_cons_self
      omega
    · rcases List.mem_cons.1 hy with rfl | hy
      · omega
      · exact hy
  cases after with
  | nil => cases hmem
  | cons z after =>
      rcases List.mem_cons.1 hmem with rfl | hmem
      · exact ⟨before, after, rfl⟩
      · have hz := hbehind z List.mem_cons_self
        have hyz := (List.pairwise_cons.1 hsorted).1 y hmem
        omega

/-- Of two comparisons with consecutive numbers, the second one goes with the first one if it is an
alternative. -/
theorem together_iff_of_number_succ {ms : List MadeOut} {x y : MadeOut}
    (h : ms.Pairwise fun x y => x.number < y.number) (hx : x ∈ ms) (hy : y ∈ ms)
    (hnext : y.number = x.number + 1) :
    Together (alternatives ms) x y ↔ y.isAlternative = true := by
  have hnodup : ms.Nodup := by
    refine h.imp ?_
    rintro x _ hlt rfl
    exact Nat.lt_irrefl _ hlt
  obtain ⟨before, after, rfl⟩ := split_of_number_succ h hx hy hnext
  exact together_alternatives_iff hnodup

end Numbers

end MadeOut

/-! ### What a condition stands for -/

namespace Condition

/-- The two conditions are on the same column. -/
def OnSameColumn (c d : Condition) : Prop :=
  ∃ a b, c.leftColumn? = some a ∧ d.leftColumn? = some b ∧ a.sameColumn b = true

/-- A condition of a query stands for some alternatives that were made out. -/
inductive StandsFor : Condition → List MadeOut → Prop
  /-- It is the condition of the only one. -/
  | alone (m : MadeOut) : StandsFor m.condition [m]
  /-- It lists their values, which all are compared with the same column. -/
  | oneOf {c : Condition} {group : List MadeOut} {values : List Literal} (hop : c.op = .isIn)
      (hrhs : c.rhs = .list values)
      (hvalues : group.map (fun m => m.condition.literal?) = values.map some)
      (hcolumn : ∀ m ∈ group, c.OnSameColumn m.condition)
      (hops : ∀ m ∈ group, m.condition.op = .eq ∨ m.condition.op = .isIn) : StandsFor c group
  /-- It is the condition of the first one, which has no value to be listed.  The others are
  lost. -/
  | first (m : MadeOut) (others : List MadeOut) (h : m.condition.literal? = none) :
      StandsFor m.condition (m :: others)

section Merging

variable {c d merged : Condition}

theorem onSameColumn_self {a : Reference} (h : c.leftColumn? = some a) : c.OnSameColumn c :=
  ⟨a, a, h, h, a.sameColumn_self⟩

/-- When conditions are merged, and into what. -/
theorem merge?_eq_some (h : c.merge? d = some merged) :
    c.OnSameColumn d ∧ (c.op = .eq ∨ c.op = .isIn) ∧ d.op = .eq ∧
      ∃ value, d.literal? = some value ∧ merged = c.withAlternative value := by
  unfold merge? at h
  split at h
  · next hmergeable =>
      obtain ⟨value, hvalue, rfl⟩ := Option.map_eq_some_iff.1 h
      simp only [isMergeable, Bool.and_eq_true, Bool.or_eq_true, beq_iff_eq] at hmergeable
      obtain ⟨⟨⟨hcolumn, hop⟩, hnext⟩, -⟩ := hmergeable
      refine ⟨?_, hop, hnext, value, hvalue, rfl⟩
      cases ha : c.leftColumn? with
      | none =>
          rw [ha] at hcolumn
          cases hcolumn
      | some a =>
          cases hb : d.leftColumn? with
          | none =>
              rw [ha, hb] at hcolumn
              cases hcolumn
          | some b =>
              rw [ha, hb] at hcolumn
              exact ⟨a, b, ha, hb, hcolumn⟩
  · cases h

/-- A condition that compares with no value stays as it is. -/
theorem withAlternative_of_literal?_eq_none (h : c.literal? = none)
    (hsingle : ∀ values, c.rhs ≠ .list values) (value : Literal) :
    c.withAlternative value = c := by
  unfold withAlternative
  split
  · next values hrhs => exact absurd hrhs (hsingle values)
  · next first hrhs =>
      rw [literal?, hrhs] at h
      cases h
  · rfl

/-- One more alternative, merged with the condition that stands for those in front of it. -/
theorem StandsFor.merge {group : List MadeOut} (h : c.StandsFor group) {x : MadeOut}
    (hsingle : ∀ m ∈ group, ∀ values, m.condition.rhs ≠ .list values)
    (hmerge : c.merge? x.condition = some merged) : merged.StandsFor (group ++ [x]) := by
  obtain ⟨hsame, hop, hnext, value, hvalue, rfl⟩ := merge?_eq_some hmerge
  cases h with
  | alone m =>
      have hlist := hsingle m List.mem_cons_self
      -- the first merge makes a list of a single value, if there is one
      cases hfirst : m.condition.literal? with
      | none =>
          rw [withAlternative_of_literal?_eq_none hfirst hlist]
          exact .first m _ hfirst
      | some v =>
          have hrhs : m.condition.rhs = .literal v := by
            unfold literal? at hfirst
            split at hfirst
            · next hrhs => rw [hrhs, Option.some.inj hfirst]
            · cases hfirst
          obtain ⟨a, -, ha, -, -⟩ := id hsame
          rw [withAlternative, hrhs]
          have hvalues : ([m] ++ [x]).map (fun m => m.condition.literal?) =
              [v, value].map some := by
            simp [hfirst, hvalue]
          refine .oneOf rfl rfl hvalues ?_ ?_
          · exact List.forall_mem_cons.2 ⟨onSameColumn_self ha, List.forall_mem_singleton.2 hsame⟩
          · exact List.forall_mem_cons.2 ⟨hop, List.forall_mem_singleton.2 (.inl hnext)⟩
  | @oneOf _ _ values hin hrhs hvalues hcolumn hops =>
      rw [withAlternative, hrhs]
      have hmore : (group ++ [x]).map (fun m => m.condition.literal?) =
          (values ++ [value]).map some := by
        simp [hvalues, hvalue]
      refine .oneOf hin rfl hmore ?_ ?_
      · exact List.forall_mem_append.2 ⟨hcolumn, List.forall_mem_singleton.2 hsame⟩
      · exact List.forall_mem_append.2 ⟨hops, List.forall_mem_singleton.2 (.inl hnext)⟩
  | first m others hnone =>
      rw [withAlternative_of_literal?_eq_none hnone (hsingle m List.mem_cons_self)]
      exact .first m _ hnone

end Merging

section Running

variable {s : Schema} {t t' : JoinTree} {part : ConditionPart}

/-- The right side of a comparison of a question is no list. -/
theorem rhs_ne_list_of_condition {c : Condition} (h : part.condition s t = (some c, t')) :
    ∀ values, c.rhs ≠ .list values := by
  obtain ⟨_, _, _, _, _, _, _, -, -, -, -, hcomparison, rfl⟩ :=
    ConditionPart.condition_eq_some_iff.1 h
  exact (ConditionPart.becomes_of_comparison? hcomparison).ne_list

/-- The conditions so far stand for the groups of what was made out so far. -/
structure Stand (cs : List Condition) (ms : List MadeOut) : Prop where
  single : ∀ m ∈ ms, ∀ values, m.condition.rhs ≠ .list values
  stand : List.Forall₂ StandsFor cs (MadeOut.alternatives ms)

theorem stand_nil : Stand [] [] :=
  ⟨fun _ hm => absurd hm List.not_mem_nil, .nil⟩

/-- What a list with a last member is related to has a last member as well. -/
theorem forall₂_concat_left {α β : Type} {R : α → β → Prop} {xs : List α} {x : α} {ys : List β}
    (h : List.Forall₂ R (xs ++ [x]) ys) :
    ∃ front y, List.Forall₂ R xs front ∧ R x y ∧ ys = front ++ [y] := by
  induction xs generalizing ys with
  | nil =>
      cases h with
      | cons hxy hnil =>
          cases hnil
          exact ⟨[], _, .nil, hxy, rfl⟩
  | cons x' xs ih =>
      cases h with
      | cons hhead hrest =>
          obtain ⟨front, y, hfront, hxy, rfl⟩ := ih hrest
          exact ⟨_ :: front, y, .cons hhead hfront, hxy, rfl⟩

/-- One more condition. -/
theorem Stand.add {cs cs' : List Condition} {ms : List MadeOut} {c : Condition} (h : Stand cs ms)
    (hsingle : ∀ values, c.rhs ≠ .list values) (hadd : add cs part c = .ok cs') (n : Nat) :
    Stand cs' (ms ++ [⟨n, part, c⟩]) := by
  refine ⟨List.forall_mem_append.2 ⟨h.single, List.forall_mem_singleton.2 hsingle⟩, ?_⟩
  have hstand := h.stand
  rw [MadeOut.alternatives_concat]
  unfold Condition.add at hadd
  split at hadd
  · next hor =>
      have halternative : MadeOut.isAlternative ⟨n, part, c⟩ = true := hor
      split at hadd
      · next merged hmerged =>
          obtain ⟨last, hlast, hmerge⟩ := Option.bind_eq_some_iff.1 hmerged
          obtain rfl := Except.ok.inj hadd
          obtain ⟨front, rfl⟩ := List.getLast?_eq_some_iff.1 hlast
          obtain ⟨groups, group, hfront, hgroup, hgroups⟩ := forall₂_concat_left hstand
          -- no condition of the group is a list by itself, so a list can only come from merging
          have hmembers : ∀ m ∈ group, ∀ values, m.condition.rhs ≠ .list values := by
            intro m hm
            refine h.single m ?_
            rw [← MadeOut.flatten_alternatives ms, hgroups]
            exact List.mem_flatten.2 ⟨group, List.mem_append_right _ List.mem_cons_self, hm⟩
          rw [List.dropLast_concat, hgroups, MadeOut.attach_of_alternative halternative]
          have hmore : merged.StandsFor (group ++ [⟨n, part, c⟩]) := hgroup.merge hmembers hmerge
          exact List.rel_append hfront (.cons hmore .nil)
      · cases hadd
  · next hno =>
      have hother : MadeOut.isAlternative ⟨n, part, c⟩ = false := Bool.eq_false_iff.2 hno
      obtain rfl := Except.ok.inj hadd
      rw [MadeOut.attach_of_not_alternative hother]
      exact List.rel_append hstand (.cons (.alone ⟨n, part, c⟩) .nil)

/-- An alternative that cannot be merged is refused. -/
theorem add_eq_error {cs : List Condition} {c : Condition} {f : Failure}
    (h : add cs part c = .error f) : part.isModified "or" = true ∧ f = part.unmergeable := by
  unfold add at h
  split at h
  · next hor =>
      split at h
      · cases h
      · exact ⟨hor, (Except.error.inj h).symm⟩
  · cases h

/-- All comparisons of a question, one after the other: an alternative that cannot be merged is
refused, or else the conditions stand for the groups of alternatives. -/
theorem ofParts_stand (s : Schema) {cs : List Condition} {ms : List MadeOut} (h : Stand cs ms)
    (t : JoinTree) (n : Nat) (parts : List ConditionPart) :
    (∃ part ∈ parts, part.isModified "or" = true ∧
        ofParts s cs t parts = .error part.unmergeable) ∨
      ∃ cs' t', ofParts s cs t parts = .ok (cs', t') ∧
        Stand cs' (ms ++ MadeOut.ofParts s t n parts) := by
  -- along the parts, with what the conditions so far stand for as the invariant
  induction parts generalizing cs ms t n with
  | nil =>
      refine .inr ⟨cs, t, rfl, ?_⟩
      rwa [MadeOut.ofParts, List.append_nil]
  | cons part parts ih =>
      have hlater {cs : List Condition} {t : JoinTree}
          (h : ∃ part ∈ parts, part.isModified "or" = true ∧
            ofParts s cs t parts = .error part.unmergeable) :
          ∃ p ∈ part :: parts, p.isModified "or" = true ∧
            ofParts s cs t parts = .error p.unmergeable := by
        obtain ⟨p, hp, hrefused⟩ := h
        exact ⟨p, List.mem_cons_of_mem _ hp, hrefused⟩
      obtain ⟨⟨found, joined⟩, hcondition⟩ : ∃ p, part.condition s t = p := ⟨_, rfl⟩
      rw [ofParts, MadeOut.ofParts, hcondition]
      cases found with
      | none => exact (ih h joined (n + 1)).imp_left hlater
      | some c =>
          dsimp only
          cases hadd : add cs part c with
          | error f =>
              obtain ⟨hor, rfl⟩ := add_eq_error hadd
              exact .inl ⟨part, List.mem_cons_self, hor, rfl⟩
          | ok cs' =>
              have hnext := h.add (rhs_ne_list_of_condition hcondition) hadd n
              have hrest := (ih hnext joined (n + 1)).imp_left hlater
              rwa [List.append_assoc] at hrest

end Running

end Condition

/-! ### The word in front of a comparison -/

namespace Components

section Words

variable {before between after : List Entity} {a b e : Entity}

/-- The comparisons of a question come in the order of their entities. -/
theorem getElem?_conditionsFrom (he : e.isComparison = true) (front : List Entity) :
    (conditionsFrom front (before ++ e :: after))[before.countP Entity.isComparison]? =
      some (conditionAt (front ++ before) e after) := by
  induction before generalizing front with
  | nil => simp [conditionsFrom, he]
  | cons x before ih =>
      have hrest := ih (front ++ [x])
      rw [List.append_assoc] at hrest
      cases hx : x.isComparison with
      | true => simpa [conditionsFrom, hx] using hrest
      | false => simpa [conditionsFrom, hx] using hrest

/-- The modifier of a comparison is the last logical word behind the comparison in front of it. -/
theorem modifier?_behind (ha : a.isComparison = true)
    (hbetween : ∀ e ∈ between, e.isComparison = false) :
    modifier? (before ++ a :: between) =
      (between.reverse.find? Entity.isLogical).map Entity.name := by
  have hpassed : ∀ e ∈ between.reverse, (!e.isComparison) = true := by
    intro e he
    rw [hbetween e (List.mem_reverse.1 he)]
    rfl
  have hstop : ((a :: before.reverse).takeWhile fun e => !e.isComparison) = [] := by
    rw [List.takeWhile_cons, ha]
    rfl
  rw [modifier?, List.reverse_append, List.reverse_cons, List.append_assoc, List.singleton_append,
    List.takeWhile_append_of_pos hpassed, hstop, List.append_nil]

/-- What was made out of the comparison of an entity, told by its number, has the parts that this
entity makes. -/
theorem part_of_number {s : Schema} {t : JoinTree} {m : MadeOut} (he : e.isComparison = true)
    (hm : m ∈ MadeOut.ofParts s t 0 ((conditionsFrom [] (before ++ e :: after)).map Prod.fst))
    (hnumber : m.number = before.countP Entity.isComparison) :
    m.part = (conditionAt before e after).1 := by
  obtain ⟨i, hi, hpart⟩ := MadeOut.part_of_mem_ofParts hm
  obtain rfl : i = before.countP Entity.isComparison := by omega
  rw [List.getElem?_map, getElem?_conditionsFrom he []] at hpart
  exact (Option.some.inj hpart).symm

end Words

end Components

namespace Condition

/-- The comparisons of any entities, on any schema and join tree: an alternative that cannot be
merged is refused, or else each condition stands for a group of alternatives.  Of two comparisons
that follow each other and were both made out, the second one comes into the group of the first one
if and only if `or` is the last logical word between them. -/
theorem ofParts_alternatives (s : Schema) (t : JoinTree) (before between after : List Entity)
    (a b : Entity) (ha : a.isComparison = true) (hb : b.isComparison = true)
    (hbetween : ∀ e ∈ between, e.isComparison = false) :
    let parts := (Components.conditionsFrom [] (before ++ a :: (between ++ b :: after))).map Prod.fst
    let ms := MadeOut.ofParts s t 0 parts
    (∃ part ∈ parts, part.isModified "or" = true ∧
        ofParts s [] t parts = .error part.unmergeable) ∨
      ∃ cs t', ofParts s [] t parts = .ok (cs, t') ∧
        List.Forall₂ StandsFor cs (MadeOut.alternatives ms) ∧
        ∀ x ∈ ms, ∀ y ∈ ms, x.number = before.countP Entity.isComparison →
          y.number = x.number + 1 →
            (MadeOut.Together (MadeOut.alternatives ms) x y ↔
              (between.reverse.find? Entity.isLogical).map Entity.name = some "or") := by
  intro parts ms
  rcases ofParts_stand s stand_nil t 0 parts with hrefused | ⟨cs, t', hok, hstand⟩
  · exact .inl hrefused
  refine .inr ⟨cs, t', hok, hstand.stand, fun x hx y hy hfirst hnext => ?_⟩
  have hsorted : ms.Pairwise fun x y => x.number < y.number := MadeOut.pairwise_ofParts s t 0 parts
  -- the second comparison is the one that the second entity makes
  have hcount : y.number = (before ++ a :: between).countP Entity.isComparison := by
    have hnone : between.countP Entity.isComparison = 0 :=
      List.countP_eq_zero.2 fun e he => Bool.eq_false_iff.1 (hbetween e he)
    rw [List.countP_append, List.countP_cons_of_pos ha, hnone, hnext, hfirst]
  have hassoc : before ++ a :: (between ++ b :: after) = before ++ a :: between ++ b :: after := by
    rw [List.append_assoc]
    rfl
  have hmade : y ∈ MadeOut.ofParts s t 0
      ((Components.conditionsFrom [] (before ++ a :: between ++ b :: after)).map Prod.fst) := by
    rwa [← hassoc]
  have hmodifier : y.part.modifier =
      (between.reverse.find? Entity.isLogical).map Entity.name := by
    rw [Components.part_of_number hb hmade hcount]
    exact Components.modifier?_behind ha hbetween
  rw [MadeOut.together_iff_of_number_succ hsorted hx hy hnext, MadeOut.isAlternative,
    ConditionPart.isModified, hmodifier, beq_iff_eq]

/-- Orders with a state, a town and an amount. -/
def stateOrders : Schema where
  tables := [
    { name := "orders",
      columns := [.asPrimaryKey { name := "id", type := .integer },
        { name := "status", type := .text }, { name := "town", type := .text },
        { name := "amount", type := .decimal }] }]

/-- An entity that means what its text says. -/
def word (kind : EntityKind) (text : String) : Entity :=
  { text, kind, confidence := 1, position := 0, length := text.length, resolved := some text }

/-- One of two states: both are in the one list of the one condition. -/
theorem ofParts_alternatives_states :
    let between := [word .string "paid", word .operator "or", word .column "status"]
    let parts := (Components.conditionsFrom [] ([word .column "status"] ++ word .operator "=" ::
      (between ++ word .operator "=" :: [word .string "open"]))).map Prod.fst
    (word .operator "=").isComparison = true ∧ (∀ e ∈ between, e.isComparison = false) ∧
      ∃ cs t', ofParts stateOrders [] (.ofBase "orders") parts = .ok (cs, t') ∧ cs.length = 1 ∧
        ∀ x ∈ MadeOut.ofParts stateOrders (.ofBase "orders") 0 parts,
          ∀ y ∈ MadeOut.ofParts stateOrders (.ofBase "orders") 0 parts,
            x.number = 0 → y.number = 1 →
              MadeOut.Together
                (MadeOut.alternatives (MadeOut.ofParts stateOrders (.ofBase "orders") 0 parts))
                x y := by
  intro between parts
  have ha : (word .operator "=").isComparison = true := by decide
  have hbetween : ∀ e ∈ between, e.isComparison = false := by decide
  have hone : (ofParts stateOrders [] (.ofBase "orders") parts).map (fun p => p.1.length) =
      .ok 1 := by
    decide +kernel
  obtain ⟨⟨cs, t'⟩, hok, hlength⟩ := (Failure.map_eq_ok_iff _ _ _).1 hone
  refine ⟨ha, hbetween, cs, t', hok, hlength, fun x hx y hy hfirst hsecond => ?_⟩
  rcases ofParts_alternatives stateOrders (.ofBase "orders") [word .column "status"] between
      [word .string "open"] (word .operator "=") (word .operator "=") ha ha hbetween with
    ⟨part, -, -, hrefused⟩ | ⟨_, _, -, -, htogether⟩
  · rw [show ofParts stateOrders [] (.ofBase "orders") parts = _ from hrefused] at hok
    cases hok
  · exact (htogether x hx y hy hfirst (by rw [hfirst, hsecond])).2 (by decide)

/-- Two alternatives that are neither refused nor put into one list.  Behind `or not` the second
one becomes a condition of its own; behind a comparison of two columns it is lost. -/
theorem ofParts_alternatives_unmerged :
    let orNot := [word .column "status", word .operator "=", word .string "paid",
      word .operator "or", word .operator "not", word .column "amount", word .operator ">",
      word .number "100"]
    let orColumn := [word .column "status", word .operator "=", word .column "town",
      word .operator "or", word .column "status", word .operator "=", word .string "paid"]
    let conditions (es : List Entity) :=
      (ofParts stateOrders [] (.ofBase "orders")
        ((Components.conditionsFrom [] es).map Prod.fst)).map
          fun p => p.1.map fun c => (c.leftColumn?.map Reference.column, c.op, c.literal?.isSome)
    conditions orNot =
        .ok [(some "status", .eq, true), (some "amount", .ltEq, true)] ∧
      conditions orColumn = .ok [(some "status", .eq, false)] := by
  decide +kernel

end Condition

end AskSql
