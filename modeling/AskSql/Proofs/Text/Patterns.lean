import AskSql.Text.Pattern

/-!
# Where patterns match

A pattern matches in many ways, and which one counts depends on all that stands behind it.  Where
just one of these ways can be gone on with, the matches of two patterns in a row are those of the
second one from there (`ends_seq_run`).  That is so of a run of digits with a blank behind it, and
of a blank between words.

Words that are written out match nowhere but in front of themselves, so a search passes over text
in which none of them stands (`findFrom?_append`).
-/

namespace AskSql.Text.Pattern

variable {p q : Pattern} {accepts : Char → Bool} {last : Option Char} {rest : List Char}
  {captured : List (Nat × String)}

/-! ### Patterns in a row and in a choice -/

theorem ends_seq_eq_nil {c : Cursor} (h : p.ends c = []) : (seq p q).ends c = [] := by
  rw [ends, h, List.flatMap_nil]

theorem ends_seq_of_ends {c d : Cursor} (h : p.ends c = [d]) : (seq p q).ends c = q.ends d := by
  rw [ends, h, List.flatMap_singleton]

theorem ends_ofSeq_cons (p : Pattern) (ps : List Pattern) (c : Cursor) :
    (ofSeq (p :: ps)).ends c = (p.ends c).flatMap (ofSeq ps).ends := by
  cases ps with
  | nil => exact (List.flatMap_singleton' _).symm
  | cons q qs => rfl

theorem ends_ofAlt_cons (p : Pattern) (ps : List Pattern) (c : Cursor) :
    (ofAlt (p :: ps)).ends c = p.ends c ++ (ofAlt ps).ends c := by
  cases ps with
  | nil =>
      have hnone : (ofAlt []).ends c = [] := by
        rw [ofAlt, ends]
        split <;> rfl
      rw [hnone, List.append_nil, ofAlt]
  | cons q qs => rfl

theorem ends_one_eq_nil (h : ∀ x ∈ rest.head?, accepts x = false) :
    (one accepts).ends ⟨last, rest, captured⟩ = [] := by
  cases rest with
  | nil => rfl
  | cons x rest =>
      have hx : accepts x = false := h x rfl
      simp [ends, hx]

theorem ends_one_cons {x : Char} (h : accepts x = true) :
    (one accepts).ends ⟨last, x :: rest, captured⟩ = [⟨some x, rest, captured⟩] := by
  simp [ends, h]

/-- Behind a word there is an edge. -/
theorem ends_edge_behind (hlast : last.any isWordChar = true)
    (hrest : ∀ x ∈ rest.head?, isWordChar x = false) :
    edge.ends ⟨last, rest, captured⟩ = [⟨last, rest, captured⟩] := by
  have hnext : rest.head?.any isWordChar = false :=
    (Option.any_eq_false _ _).2 hrest
  have hedge : Cursor.atEdge ⟨last, rest, captured⟩ = true := by
    rw [Cursor.atEdge, hlast, hnext]
    rfl
  rw [ends, if_pos hedge]

/-- In front of a word there is an edge. -/
theorem ends_edge_before (hlast : last.any isWordChar = false)
    (hrest : rest.head?.any isWordChar = true) :
    edge.ends ⟨last, rest, captured⟩ = [⟨last, rest, captured⟩] := by
  have hedge : Cursor.atEdge ⟨last, rest, captured⟩ = true := by
    rw [Cursor.atEdge, hlast, hrest]
    rfl
  rw [ends, if_pos hedge]

theorem eq_of_mem_ends_edge {c d : Cursor} (h : d ∈ edge.ends c) : d = c := by
  rw [ends] at h
  split at h
  · exact List.mem_singleton.1 h
  · cases h

theorem upTo_append (run rest : List Char) (last last' : Option Char)
    (captured : List (Nat × String)) :
    Cursor.upTo ⟨last, run ++ rest, captured⟩ ⟨last', rest, captured⟩ = run := by
  simp [Cursor.upTo]

theorem ends_capture_of_ends {p : Pattern} {run rest : List Char} {last last' : Option Char}
    {captured : List (Nat × String)}
    (h : p.ends ⟨last, run ++ rest, captured⟩ = [⟨last', rest, captured⟩]) (index : Nat) :
    (capture index p).ends ⟨last, run ++ rest, captured⟩ =
      [⟨last', rest, (index, String.ofList run) :: captured⟩] := by
  rw [ends, h, List.map_singleton, upTo_append]

/-! ### Runs -/

/-- A repetition whose body can go only one way goes it. -/
theorem repeatEnds_of_step {step : Cursor → List Cursor} {c d : Cursor} (hstep : step c = [d])
    (hmoves : d.rest.length < c.rest.length) (n : Nat) :
    repeatEnds step (n + 1) c = repeatEnds step n d ++ [c] := by
  simp [repeatEnds, hstep, hmoves]

/-- A repetition whose body can go no way stays. -/
theorem repeatEnds_of_stuck {step : Cursor → List Cursor} {c : Cursor} (hstep : step c = [])
    (n : Nat) : repeatEnds step n c = [c] := by
  cases n <;> simp [repeatEnds, hstep]

/-- What stands last behind a place: the last character of some, or the one in front of them. -/
theorem getLast?_cons_or (x : Char) (xs : List Char) (last : Option Char) :
    (x :: xs).getLast?.or last = xs.getLast?.or (some x) := by
  cases xs with
  | nil => rfl
  | cons y xs => rw [List.getLast?_cons_cons, List.getLast?_cons]; rfl

/-- The repetition takes all of a run, or else it leaves some of it. -/
theorem repeatEnds_run (run : List Char) (hrun : ∀ x ∈ run, accepts x = true)
    (hrest : ∀ x ∈ rest.head?, accepts x = false) (n : Nat) (hn : run.length ≤ n)
    (last : Option Char) :
    ∃ shorter, repeatEnds (one accepts).ends n ⟨last, run ++ rest, captured⟩ =
        ⟨run.getLast?.or last, rest, captured⟩ :: shorter ∧
      ∀ d ∈ shorter, ∃ x ∈ run, ∃ more, d.rest = x :: more := by
  -- by induction on the run: going on is tried before stopping, so the longest match comes first
  induction run generalizing n last with
  | nil => exact ⟨[], repeatEnds_of_stuck (ends_one_eq_nil hrest) n, nofun⟩
  | cons x run ih =>
      obtain ⟨m, rfl⟩ : ∃ m, n = m + 1 := ⟨n - 1, by rw [List.length_cons] at hn; omega⟩
      obtain ⟨hx, hrun⟩ := List.forall_mem_cons.1 hrun
      obtain ⟨shorter, hends, hshorter⟩ :=
        ih hrun m (by rw [List.length_cons] at hn; omega) (some x)
      refine ⟨shorter ++ [⟨last, x :: run ++ rest, captured⟩], ?_, ?_⟩
      · rw [List.cons_append, repeatEnds_of_step (ends_one_cons hx) (by simp), hends,
          getLast?_cons_or]
        rfl
      · rw [List.forall_mem_append, List.forall_mem_singleton]
        refine ⟨fun d hd => ?_, x, List.mem_cons_self, run ++ rest, rfl⟩
        obtain ⟨y, hy, more, hmore⟩ := hshorter d hd
        exact ⟨y, List.mem_cons_of_mem x hy, more, hmore⟩

/-- A run that is not empty is taken as a whole, or else some of it is left. -/
theorem ends_atLeastOnce_run {run : List Char} (hne : run ≠ [])
    (hrun : ∀ x ∈ run, accepts x = true) (hrest : ∀ x ∈ rest.head?, accepts x = false) :
    ∃ shorter, (atLeastOnce (one accepts)).ends ⟨last, run ++ rest, captured⟩ =
        ⟨run.getLast?, rest, captured⟩ :: shorter ∧
      ∀ d ∈ shorter, ∃ x ∈ run, ∃ more, d.rest = x :: more := by
  obtain ⟨x, run, rfl⟩ := List.exists_cons_of_ne_nil hne
  obtain ⟨hx, hrun⟩ := List.forall_mem_cons.1 hrun
  obtain ⟨shorter, hends, hshorter⟩ :=
    repeatEnds_run run hrun hrest (run ++ rest).length (by simp) (some x)
  refine ⟨shorter, ?_, fun d hd => ?_⟩
  · rw [atLeastOnce, List.cons_append, ends_seq_of_ends (ends_one_cons hx), ends, hends,
      ← getLast?_cons_or x run none, Option.or_none]
  · obtain ⟨y, hy, more, hmore⟩ := hshorter d hd
    exact ⟨y, List.mem_cons_of_mem x hy, more, hmore⟩

/-- What cannot go on with a character of the run goes on behind the run. -/
theorem ends_seq_run {run : List Char} (hne : run ≠ []) (hrun : ∀ x ∈ run, accepts x = true)
    (hrest : ∀ x ∈ rest.head?, accepts x = false)
    (hstuck : ∀ d : Cursor, (∃ x ∈ run, ∃ more, d.rest = x :: more) → q.ends d = []) :
    ∃ last', (seq (atLeastOnce (one accepts)) q).ends ⟨last, run ++ rest, captured⟩ =
      q.ends ⟨last', rest, captured⟩ := by
  obtain ⟨shorter, hends, hshorter⟩ := ends_atLeastOnce_run hne hrun hrest
  -- the shorter matches leave a character of the run, and nothing goes on there
  have hnone : shorter.flatMap q.ends = [] :=
    List.flatMap_eq_nil_iff.2 fun d hd => hstuck d (hshorter d hd)
  exact ⟨_, by rw [ends, hends, List.flatMap_cons, hnone, List.append_nil]⟩

/-- As `ends_seq_run`, where the run is kept under a number. -/
theorem ends_seq_capture_run {run : List Char} (hne : run ≠ [])
    (hrun : ∀ x ∈ run, accepts x = true) (hrest : ∀ x ∈ rest.head?, accepts x = false)
    (hstuck : ∀ d : Cursor, (∃ x ∈ run, ∃ more, d.rest = x :: more) → q.ends d = [])
    (index : Nat) :
    ∃ last', (seq (capture index (atLeastOnce (one accepts))) q).ends
        ⟨last, run ++ rest, captured⟩ =
      q.ends ⟨last', rest, (index, String.ofList run) :: captured⟩ := by
  obtain ⟨shorter, hends, hshorter⟩ := ends_atLeastOnce_run hne hrun hrest
  refine ⟨run.getLast?, ?_⟩
  have hnone : ∀ d ∈ shorter, q.ends { d with captured :=
      (index, String.ofList (Cursor.upTo ⟨last, run ++ rest, captured⟩ d)) :: d.captured } = [] :=
    fun d hd => hstuck _ (hshorter d hd)
  rw [ends, ends, hends, List.map_cons, List.flatMap_cons, upTo_append, List.flatMap_map,
    List.flatMap_eq_nil_iff.2 hnone, List.append_nil]

/-- The blanks between two words are one space. -/
theorem ends_blanks_space (hrest : ∀ x ∈ rest.head?, isBlank x = false) :
    blanks.ends ⟨last, ' ' :: rest, captured⟩ = [⟨some ' ', rest, captured⟩] := by
  have hspace : (one isBlank).ends ⟨last, ' ' :: rest, captured⟩ = [⟨some ' ', rest, captured⟩] :=
    ends_one_cons rfl
  rw [blanks, atLeastOnce, ends_seq_of_ends hspace, ends,
    repeatEnds_of_stuck (ends_one_eq_nil hrest)]

/-- There are no blanks where something else stands. -/
theorem ends_blanks_eq_nil (hrest : ∀ x ∈ rest.head?, isBlank x = false) :
    blanks.ends ⟨last, rest, captured⟩ = [] :=
  ends_seq_eq_nil (ends_one_eq_nil hrest)

/-! ### Words that are written out -/

theorem prefix_of_mem_ends_ofSeq {cs : List Char} {c d : Cursor}
    (h : d ∈ (ofSeq (cs.map fun x => one (· == x))).ends c) : cs <+: c.rest := by
  induction cs generalizing c with
  | nil => exact List.nil_prefix
  | cons x cs ih =>
      obtain ⟨last, rest, captured⟩ := c
      rw [List.map_cons, ends_ofSeq_cons, List.mem_flatMap] at h
      obtain ⟨e, he, hd⟩ := h
      cases rest with
      | nil => cases he
      | cons y rest =>
          rw [ends] at he
          dsimp only at he
          split at he
          · next hy =>
              obtain rfl := List.mem_singleton.1 he
              exact List.cons_prefix_cons.2 ⟨(eq_of_beq hy).symm, ih hd⟩
          · cases he

/-- One of some words without blanks matches only where one of them stands. -/
theorem exists_prefix_of_mem_ends_exacts {ss : List String} (hss : ∀ s ∈ ss, ' ' ∉ s.toList)
    {c d : Cursor} (h : d ∈ (exacts ss).ends c) : ∃ s ∈ ss, s.toList <+: c.rest := by
  induction ss with
  | nil =>
      rw [exacts, List.map_nil, ofAlt, ends_one_eq_nil (fun _ _ => rfl)] at h
      cases h
  | cons s ss ih =>
      obtain ⟨hs, hss⟩ := List.forall_mem_cons.1 hss
      rw [exacts, List.map_cons, ends_ofAlt_cons, List.mem_append] at h
      obtain h | h := h
      · have hplain : exact s = ofSeq (s.toList.map fun x => one (· == x)) := by
          refine congrArg ofSeq (List.map_congr_left fun x hx => if_neg ?_)
          rintro heq
          exact hs (eq_of_beq heq ▸ hx)
        rw [hplain] at h
        exact ⟨s, List.mem_cons_self, prefix_of_mem_ends_ofSeq h⟩
      · obtain ⟨t, ht, hprefix⟩ := ih hss h
        exact ⟨t, List.mem_cons_of_mem s ht, hprefix⟩

/-- The search passes over text in which no match starts. -/
theorem findFrom?_passed {front : List Char}
    (hfront : ∀ before more, front = before ++ more → more ≠ [] →
      p.matchAt? (before.getLast?.or last) (more ++ rest) = none) :
    p.findFrom? last (front ++ rest) = p.findFrom? (front.getLast?.or last) rest := by
  -- what a match sees in front of it is the last character that was passed over
  induction front generalizing last with
  | nil => rfl
  | cons x front ih =>
      have hhere := hfront [] (x :: front) rfl (List.cons_ne_nil x front)
      rw [List.getLast?_nil, Option.none_or, List.cons_append] at hhere
      rw [List.cons_append, findFrom?, hhere, getLast?_cons_or]
      refine ih fun before more hsplit hmore => ?_
      rw [← getLast?_cons_or x before last]
      exact hfront (x :: before) more (congrArg (x :: ·) hsplit) hmore

theorem findFrom?_append {front : List Char}
    (hfront : ∀ back ≠ [], back <:+ front → ∀ last, p.matchAt? last (back ++ rest) = none)
    (last : Option Char) :
    p.findFrom? last (front ++ rest) = p.findFrom? (front.getLast?.or last) rest :=
  findFrom?_passed fun before more hsplit hmore => hfront more hmore ⟨before, hsplit.symm⟩ _

end AskSql.Text.Pattern
