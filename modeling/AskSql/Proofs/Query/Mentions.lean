import AskSql.Proofs.Query.Scope

/-!
# What a query mentions

`Mentions P S q` says of every reference of a query that it has the property `P`, and of every
subquery in its conditions that it has the property `S`.  The check of the scope is such a property
(`Query.mentions_iff`), clause by clause.
-/

namespace AskSql

/-- The references of a condition are `P`, and the subquery that it may have is `S`. -/
structure Condition.Mentions (P : Reference → Prop) (S : Query → Prop) (c : Condition) : Prop where
  references : ∀ r ∈ c.references, P r
  subquery : ∀ sub, c.rhs = .subquery sub → S sub

theorem Condition.Mentions.mono {P P' : Reference → Prop} {S S' : Query → Prop} {c : Condition}
    (h : c.Mentions P S) (hP : ∀ r, P r → P' r) (hS : ∀ sub, S sub → S' sub) : c.Mentions P' S' :=
  ⟨fun r hr => hP r (h.references r hr), fun sub hsub => hS sub (h.subquery sub hsub)⟩

theorem Condition.mem_references_of_lhs {c : Condition} {r : Reference}
    (h : r ∈ c.lhs.references) : r ∈ c.references := by
  unfold references
  split
  · exact List.mem_append_left _ h
  · exact h

namespace Query

/-- The references of a query are `P`, and the subqueries in its conditions are `S`. -/
structure Mentions (P : Reference → Prop) (S : Query → Prop) (q : Query) : Prop where
  items : ∀ i ∈ q.items, ∀ r ∈ i.references, P r
  joins : ∀ j ∈ q.joins, P j.left ∧ P j.right ∧ ∀ c ∈ j.conditions, c.Mentions P S
  filters : ∀ c ∈ q.filters, c.Mentions P S
  groupBy : ∀ r ∈ q.groupBy, P r
  having : ∀ c ∈ q.having, c.Mentions P S
  orderBy : ∀ k ∈ q.orderBy, ∀ r ∈ k.item.references, P r

variable {P : Reference → Prop} {S : Query → Prop}

theorem mentions_iff {q : Query} :
    q.Mentions P S ↔
      (∀ x ∈ q.references, P x.2) ∧ ∀ c ∈ q.conditions, ∀ sub, c.rhs = .subquery sub → S sub := by
  simp only [references, conditions, List.forall_mem_append, List.forall_mem_map,
    List.forall_mem_flatMap, List.forall_mem_cons]
  constructor
  · rintro ⟨hitems, hjoins, hfilters, hgroup, hhaving, horder⟩
    refine ⟨⟨⟨⟨⟨⟨hitems, ?_⟩, ?_⟩, hgroup⟩, ?_⟩, horder⟩, ⟨?_, ?_⟩, ?_⟩
    · exact fun j hj => ⟨(hjoins j hj).1, (hjoins j hj).2.1, fun c hc =>
        ((hjoins j hj).2.2 c hc).references⟩
    · exact fun c hc => (hfilters c hc).references
    · exact fun c hc => (hhaving c hc).references
    · exact fun c hc => (hfilters c hc).subquery
    · exact fun c hc => (hhaving c hc).subquery
    · exact fun j hj c hc => ((hjoins j hj).2.2 c hc).subquery
  · rintro ⟨⟨⟨⟨⟨⟨hitems, hjoins⟩, hfilters⟩, hgroup⟩, hhaving⟩, horder⟩,
      ⟨hfilterSubs, hhavingSubs⟩, hjoinSubs⟩
    exact {
      items := hitems
      joins := fun j hj => ⟨(hjoins j hj).1, (hjoins j hj).2.1, fun c hc =>
        ⟨(hjoins j hj).2.2 c hc, hjoinSubs j hj c hc⟩⟩
      filters := fun c hc => ⟨hfilters c hc, hfilterSubs c hc⟩
      groupBy := hgroup
      having := fun c hc => ⟨hhaving c hc, hhavingSubs c hc⟩
      orderBy := horder }

theorem Mentions.mono {P' : Reference → Prop} {S' : Query → Prop} {q : Query}
    (h : q.Mentions P S) (hP : ∀ r, P r → P' r) (hS : ∀ sub, S sub → S' sub) :
    q.Mentions P' S' where
  items := fun i hi r hr => hP r (h.items i hi r hr)
  joins := fun j hj => ⟨hP _ (h.joins j hj).1, hP _ (h.joins j hj).2.1, fun c hc =>
    ((h.joins j hj).2.2 c hc).mono hP hS⟩
  filters := fun c hc => (h.filters c hc).mono hP hS
  groupBy := fun r hr => hP r (h.groupBy r hr)
  having := fun c hc => (h.having c hc).mono hP hS
  orderBy := fun k hk r hr => hP r (h.orderBy k hk r hr)

theorem Mentions.conditions {q : Query} (h : q.Mentions P S) :
    ∀ c ∈ q.conditions, c.Mentions P S := by
  simp only [Query.conditions, List.forall_mem_append, List.forall_mem_flatMap]
  exact ⟨⟨h.filters, h.having⟩, fun j hj => (h.joins j hj).2.2⟩

end Query

end AskSql
