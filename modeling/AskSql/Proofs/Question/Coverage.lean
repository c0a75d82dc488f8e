import AskSql.Proofs.Question.Lexemes
import Mathlib.Data.List.Basic

/-!
# Nothing of a question is lost

Reading ends for every question, and the question is its tokens in turn with blanks in front of
them and behind the last one.  `Spread` says so of tokens with their gaps; reading a character or a
lexeme keeps it (`spread_scan`), and so does making two neighbours one token (`Spread.merge`).
`tokenize_covers` reads off what it means for positions: tokens stand in order and apart, each is
the part of the question at its place, and every character beside them is a blank.

Each token takes the piece that a rule matches, or a word, or a single character
(`exists_scan_lexeme`).  Which of them it is does not enter into the rest: every one is a piece from
the beginning of what is left, and not empty.

Reading can be taken up wherever a token begins (`scan_append`), and a token that makes no pair with
its neighbours stays one (`mem_mergePairs`).
-/

namespace AskSql.Token

open Text

/-- The bytes that characters take up. -/
def bytes (cs : List Char) : Nat :=
  (String.ofList cs).utf8ByteSize

@[simp] theorem bytes_append (cs ds : List Char) : bytes (cs ++ ds) = bytes cs + bytes ds := by
  simp [bytes, String.ofList_append]

@[simp] theorem bytes_singleton (c : Char) : bytes [c] = c.utf8Size := by
  rw [bytes, ← String.singleton_eq_ofList, String.utf8ByteSize_singleton]

@[simp] theorem bytes_toList (s : String) : bytes s.toList = s.utf8ByteSize := by
  rw [bytes, String.ofList_toList]

theorem bytes_cons (c : Char) (cs : List Char) : bytes (c :: cs) = c.utf8Size + bytes cs := by
  rw [← List.singleton_append, bytes_append, bytes_singleton]

theorem bytes_pos {cs : List Char} (h : cs ≠ []) : 0 < bytes cs := by
  obtain ⟨c, cs, rfl⟩ := List.exists_cons_of_ne_nil h
  have := c.utf8Size_pos
  rw [bytes_cons]
  omega

/-- A character of two lists in a row is one of the first, or one of the second. -/
theorem mem_left_or_right {as bs front back : List Char} {c : Char}
    (h : as ++ bs = front ++ c :: back) :
    (∃ more, as = front ++ c :: more) ∨ ∃ more, front = as ++ more ∧ bs = more ++ c :: back := by
  obtain ⟨more, hfront, hbs⟩ | ⟨more, has, hback⟩ := List.append_eq_append_iff.1 h
  · exact .inr ⟨more, hfront, hbs⟩
  · cases more with
    | nil => exact .inr ⟨[], by simpa using has.symm, by simpa using hback.symm⟩
    | cons x more =>
        obtain ⟨rfl, -⟩ := List.cons.inj hback
        exact .inl ⟨more, has⟩

/-- From a byte on, the characters are the tokens in turn, each with the blanks in front of it, and
blanks at the end. -/
inductive Spread : Nat → List Char → List (String × Token) → Prop where
  | done {n : Nat} {last : List Char} (hlast : last.all isBlank = true) : Spread n last []
  | next {n : Nat} {gap word rest : List Char} {t : Token} {row : List (String × Token)}
      (hgap : gap.all isBlank = true) (hword : word ≠ []) (htext : t.text = String.ofList word)
      (hposition : t.position = n + bytes gap) (hlength : t.length = bytes word)
      (hrest : Spread t.stop rest row) :
      Spread n (gap ++ (word ++ rest)) ((String.ofList gap, t) :: row)

/-! ### Reading and merging -/

/-- What is no blank is the first of the characters that are taken for a token, and reading goes on
behind them. -/
theorem exists_scan_lexeme (d : Dictionary) {c : Char} (hc : ¬isBlank c = true) (n : Nat)
    (gap cs : List Char) :
    ∃ (t : Token) (piece rest : List Char), Lexeme.Takes (c :: cs) piece rest ∧
      t.text = String.ofList piece ∧ t.position = n ∧ t.length = bytes piece ∧
        scan d n gap (c :: cs) = (String.ofList gap, t) :: scan d (n + bytes piece) [] rest :=
  ⟨_, _, _, Lexeme.takes_read d c cs, rfl, rfl, rfl, scan_lexeme d n gap hc cs⟩

/-- The induction is on the characters that are left; `gap` holds the blanks since the last
token. -/
theorem spread_scan (d : Dictionary) (n : Nat) (gap : List Char)
    (hgap : gap.all isBlank = true) (cs : List Char) :
    Spread n (gap ++ cs) (scan d (n + bytes gap) gap cs) := by
  induction hsize : cs.length using Nat.strongRecOn generalizing n gap cs with
  | ind size ih =>
      cases cs with
      | nil =>
          rw [scan_nil, List.append_nil]
          exact .done hgap
      | cons c cs =>
          rw [List.length_cons] at hsize
          by_cases hc : isBlank c = true
          · have hnext := ih cs.length (by omega) n (gap ++ [c]) (by simp [hgap, hc]) cs rfl
            rw [bytes_append, bytes_singleton, ← Nat.add_assoc, List.append_assoc] at hnext
            rw [scan_blank _ _ _ hc]
            exact hnext
          · obtain ⟨t, piece, rest, htakes, htext, hposition, hlength, hscan⟩ :=
              exists_scan_lexeme d hc (n + bytes gap) gap cs
            have hshorter : rest.length < size := by
              have hpiece := List.length_pos_iff.2 htakes.ne_nil
              rw [← hsize, ← List.length_cons (a := c), ← htakes.append_eq, List.length_append]
              omega
            have hnext := ih rest.length hshorter (n + bytes gap + bytes piece) [] rfl rest rfl
            have hstop : t.stop = n + bytes gap + bytes piece := by
              rw [Token.stop, hposition, hlength]
            rw [hscan, ← htakes.append_eq]
            exact .next hgap htakes.ne_nil htext hposition hlength (hstop ▸ hnext)

/-- Two neighbours are one token with the blanks between them, from where the first begins to where
the second ends. -/
theorem Spread.merge {n : Nat} {cs : List Char} {gap gap' : String} {s t : Token}
    {row : List (String × Token)} (kind : TokenKind) (normalized : String)
    (h : Spread n cs ((gap, s) :: (gap', t) :: row)) :
    Spread n cs ((gap, Token.merge gap' s t kind normalized) :: row) := by
  obtain _ | ⟨hgap, hword, htext, hposition, hlength, hrest⟩ := h
  obtain _ | ⟨hgap', hword', htext', hposition', hlength', hrest'⟩ := hrest
  rename_i first word gap' word' rest
  have hstop : (Token.merge (String.ofList gap') s t kind normalized).stop = t.stop := by
    simp only [Token.stop, Token.merge] at hposition' ⊢
    omega
  have htogether : word ++ (gap' ++ (word' ++ rest)) = (word ++ gap' ++ word') ++ rest := by simp
  rw [htogether]
  refine .next hgap (by simp [hword]) ?_ hposition ?_ (hstop ▸ hrest')
  · simp [Token.merge, htext, htext', String.ofList_append, String.append_assoc]
  · simp only [Token.stop, Token.merge, bytes_append] at hposition' ⊢
    omega

/-- Whatever pairs are made one token, the question is spread over the tokens. -/
theorem exists_spread_mergePairs (d : Dictionary) {n : Nat} {cs : List Char}
    {row : List (String × Token)} (h : Spread n cs row) :
    ∃ merged, merged.map Prod.snd = mergePairs d row ∧ Spread n cs merged := by
  fun_induction mergePairs d row generalizing n cs with
  | case1 => exact ⟨[], rfl, h⟩
  | case2 gap t => exact ⟨[(gap, t)], rfl, h⟩
  | case3 gap s gap' t row kind normalized hpair ih =>
      obtain _ | ⟨hgap, hword, htext, hposition, hlength, hrest⟩ := h.merge kind normalized
      obtain ⟨merged, hmerged, hspread⟩ := ih hrest
      exact ⟨_ :: merged, by rw [List.map_cons, hmerged],
        .next hgap hword htext hposition hlength hspread⟩
  | case4 gap s gap' t row hpair ih =>
      obtain _ | ⟨hgap, hword, htext, hposition, hlength, hrest⟩ := h
      obtain ⟨merged, hmerged, hspread⟩ := ih hrest
      exact ⟨_ :: merged, by rw [List.map_cons, hmerged],
        .next hgap hword htext hposition hlength hspread⟩

/-! ### What it means for positions -/

/-- The blanks and the texts of the tokens in turn. -/
def weave : List String → List Token → String
  | gap :: gaps, t :: ts => gap ++ t.text ++ weave gaps ts
  | gap :: _, [] => gap
  | [], _ => ""

/-- The bytes from one token to the next, from the byte `n` to the byte `size`. -/
def distances (size : Nat) : Nat → List Token → List Nat
  | n, [] => [size - n]
  | n, t :: ts => (t.position - n) :: distances size t.stop ts

/-- The tokens are the question, blanks apart. -/
structure Covers (question : String) (tokens : List Token) : Prop where
  length_pos : ∀ t ∈ tokens, 0 < t.length
  ordered : tokens.Pairwise fun s t => s.position < t.position ∧ s.stop ≤ t.position
  /-- A token begins and ends where characters do, and its text is what stands there. -/
  slice : ∀ t ∈ tokens, ∃ front back : String, question = front ++ t.text ++ back ∧
    front.utf8ByteSize = t.position ∧ t.text.utf8ByteSize = t.length
  /-- A character is a blank if its byte lies in no token. -/
  isBlank_of_outside : ∀ (front : String) (c : Char) (back : String),
    question = front ++ String.singleton c ++ back →
      (∀ t ∈ tokens, front.utf8ByteSize < t.position ∨ t.stop ≤ front.utf8ByteSize) →
        isBlank c = true
  /-- The question is got back from the tokens and blanks that fill the bytes between them. -/
  rebuilt : ∃ gaps : List String, (∀ gap ∈ gaps, isBlankText gap = true) ∧
    gaps.map String.utf8ByteSize = distances question.utf8ByteSize 0 tokens ∧
      weave gaps tokens = question

namespace Spread

variable {n : Nat} {cs : List Char} {row : List (String × Token)}

theorem length_pos (h : Spread n cs row) : ∀ t ∈ row.map Prod.snd, 0 < t.length := by
  induction h with
  | done hlast => simp
  | next hgap hword htext hposition hlength hrest ih =>
      simp only [List.map_cons, List.forall_mem_cons]
      exact ⟨hlength ▸ bytes_pos hword, ih⟩

theorem le_position (h : Spread n cs row) : ∀ t ∈ row.map Prod.snd, n ≤ t.position := by
  induction h with
  | done hlast => simp
  | next hgap hword htext hposition hlength hrest ih =>
      simp only [List.map_cons, List.forall_mem_cons]
      refine ⟨by omega, fun t ht => ?_⟩
      have := ih t ht
      rw [Token.stop] at this
      omega

theorem ordered (h : Spread n cs row) :
    (row.map Prod.snd).Pairwise fun s t => s.position < t.position ∧ s.stop ≤ t.position := by
  induction h with
  | done hlast => simp
  | next hgap hword htext hposition hlength hrest ih =>
      rw [List.map_cons, List.pairwise_cons]
      refine ⟨fun t ht => ?_, ih⟩
      have hle := hrest.le_position t ht
      have hpos := bytes_pos hword
      refine ⟨?_, hle⟩
      rw [Token.stop] at hle
      dsimp only
      omega

theorem slice (h : Spread n cs row) : ∀ t ∈ row.map Prod.snd, ∃ front back : List Char,
    cs = front ++ t.text.toList ++ back ∧ n + bytes front = t.position ∧
      bytes t.text.toList = t.length := by
  induction h with
  | done hlast => simp
  | next hgap hword htext hposition hlength hrest ih =>
      rename_i n gap word rest t row
      simp only [List.map_cons, List.forall_mem_cons]
      refine ⟨⟨gap, rest, by simp [htext], hposition.symm, by simp [htext, hlength, bytes]⟩, ?_⟩
      intro u hu
      obtain ⟨front, back, rfl, hfront, hback⟩ := ih u hu
      refine ⟨gap ++ word ++ front, back, by simp, ?_, hback⟩
      rw [Token.stop] at hfront
      simp only [bytes_append]
      omega

theorem isBlank_of_outside (h : Spread n cs row) : ∀ (front : List Char) (c : Char)
    (back : List Char), cs = front ++ c :: back →
      (∀ t ∈ row.map Prod.snd, n + bytes front < t.position ∨ t.stop ≤ n + bytes front) →
        isBlank c = true := by
  induction h with
  | done hlast =>
      rintro front c back rfl -
      exact List.all_eq_true.1 hlast c (by simp)
  | next hgap hword htext hposition hlength hrest ih =>
      rename_i n gap word rest t row
      intro front c back hcs houtside
      simp only [List.map_cons, List.forall_mem_cons] at houtside
      obtain ⟨hhere, hlater⟩ := houtside
      -- in the gap, in the token, or behind both
      obtain ⟨more, rfl⟩ | ⟨behind, rfl, hbehind⟩ := mem_left_or_right hcs
      · exact List.all_eq_true.1 hgap c (by simp)
      obtain ⟨more, rfl⟩ | ⟨after, rfl, hafter⟩ := mem_left_or_right hbehind
      · -- in the token, which is not outside
        have := c.utf8Size_pos
        rw [Token.stop] at hhere
        simp only [bytes_append, bytes_cons] at hhere hlength
        omega
      · refine ih after c back hafter fun u hu => ?_
        have := hlater u hu
        rw [Token.stop]
        simp only [bytes_append] at this ⊢
        omega

theorem rebuilt (h : Spread n cs row) {size : Nat} (hsize : n + bytes cs = size) :
    ∃ gaps : List String, (∀ gap ∈ gaps, isBlankText gap = true) ∧
      gaps.map String.utf8ByteSize = distances size n (row.map Prod.snd) ∧
        weave gaps (row.map Prod.snd) = String.ofList cs := by
  induction h with
  | done hlast =>
      rename_i n last
      refine ⟨[String.ofList last], by simpa [isBlankText] using hlast, ?_, rfl⟩
      simp [distances, ← hsize, bytes]
  | next hgap hword htext hposition hlength hrest ih =>
      rename_i n gap word rest t row
      obtain ⟨gaps, hblank, hdistances, hweave⟩ := ih (by
        rw [Token.stop, ← hsize]
        simp only [bytes_append]
        omega)
      refine ⟨String.ofList gap :: gaps, ?_, ?_, ?_⟩
      · simp only [List.forall_mem_cons]
        exact ⟨by simpa [isBlankText] using hgap, hblank⟩
      · rw [List.map_cons, List.map_cons, hdistances, distances, hposition, Nat.add_sub_cancel_left]
        rfl
      · rw [List.map_cons, weave, hweave, htext, String.ofList_append, String.ofList_append,
          String.append_assoc]

theorem covers {question : String} (h : Spread 0 question.toList row) :
    Covers question (row.map Prod.snd) where
  length_pos := h.length_pos
  ordered := h.ordered
  slice t ht := by
    obtain ⟨front, back, hquestion, hfront, hlength⟩ := h.slice t ht
    refine ⟨String.ofList front, String.ofList back, ?_, ?_, ?_⟩
    · rw [← String.toList_inj, hquestion]
      simp
    · rw [← hfront, Nat.zero_add, bytes]
    · rw [← hlength, bytes_toList]
  isBlank_of_outside front c back hquestion houtside := by
    refine h.isBlank_of_outside front.toList c back.toList (by simp [hquestion]) fun t ht => ?_
    simpa using houtside t ht
  rebuilt := by
    obtain ⟨gaps, hblank, hdistances, hweave⟩ := h.rebuilt (Nat.zero_add _)
    rw [bytes_toList] at hdistances
    rw [String.ofList_toList] at hweave
    exact ⟨gaps, hblank, hdistances, hweave⟩

end Spread

/-! ### Single tokens -/

section Single

variable {words : Dictionary}

theorem le_position_of_mem_scan {n : Nat} {cs : List Char} {t : Token}
    (ht : t ∈ (scan words n [] cs).map Prod.snd) : n ≤ t.position :=
  (spread_scan words n [] rfl cs).le_position t ht

/-- Reading passes through every place where a token begins, and goes on there with what is left.
The induction is on the characters in front of the place. -/
theorem scan_append {front back : List Char} {n : Nat} {gap : List Char}
    (hstart : ∃ t ∈ (scan words n gap (front ++ back)).map Prod.snd,
      t.position = n + bytes front) :
    ∃ row gap', scan words n gap (front ++ back) =
      row ++ scan words (n + bytes front) gap' back := by
  induction hsize : front.length using Nat.strongRecOn generalizing front n gap with
  | ind size ih =>
      cases front with
      | nil => exact ⟨[], gap, rfl⟩
      | cons c front =>
          by_cases hc : isBlank c = true
          · rw [List.cons_append, scan_blank _ _ _ hc, bytes_cons, ← Nat.add_assoc] at hstart ⊢
            exact ih front.length (by rw [← hsize]; exact Nat.lt_succ_self _) hstart rfl
          · obtain ⟨first, piece, rest, htakes, -, hfirst, -, hscan⟩ :=
              exists_scan_lexeme words hc n gap (front ++ back)
            have hpos := bytes_pos (List.cons_ne_nil c front)
            rw [List.cons_append, hscan] at hstart ⊢
            obtain ⟨t, ht, hposition⟩ := hstart
            obtain rfl | ht := List.mem_cons.1 ht
            · -- the first token begins in front of the place
              omega
            obtain ⟨more, hfront, rfl⟩ | ⟨more, rfl, rfl⟩ :=
              List.append_eq_append_iff.1 (htakes.append_eq.trans (List.cons_append ..).symm)
            · rw [hfront, bytes_append, ← Nat.add_assoc] at hposition ⊢
              have hshorter : more.length < size := by
                have := List.length_pos_iff.2 htakes.ne_nil
                rw [← hsize, hfront, List.length_append]
                omega
              obtain ⟨row, gap', hrow⟩ := ih more.length hshorter ⟨t, ht, hposition⟩ rfl
              exact ⟨_ :: row, gap', by rw [hrow, List.cons_append]⟩
            · cases more with
              | nil => exact ⟨[_], [], by rw [List.append_nil, List.singleton_append]; rfl⟩
              | cons x more =>
                  -- the first token goes on behind the place, and the others begin behind it
                  have hle := le_position_of_mem_scan ht
                  have := x.utf8Size_pos
                  rw [bytes_append, bytes_cons x] at hle
                  omega

theorem mem_mergePairs {row : List (String × Token)} {t : Token} (ht : t ∈ row.map Prod.snd)
    (hright : ∀ s, pairKind? words s t = none) (hleft : ∀ s, pairKind? words t s = none) :
    t ∈ mergePairs words row := by
  fun_induction mergePairs words row with
  | case1 => cases ht
  | case2 gap u => exact ht
  | case3 gap s gap' u row kind normalized hpair ih =>
      obtain rfl | ht := List.mem_cons.1 ht
      · rw [hleft] at hpair
        cases hpair
      obtain rfl | ht := List.mem_cons.1 ht
      · rw [hright] at hpair
        cases hpair
      · exact List.mem_cons_of_mem _ (ih ht)
  | case4 gap s gap' u row hpair ih =>
      obtain rfl | ht := List.mem_cons.1 ht
      · exact List.mem_cons_self
      · exact List.mem_cons_of_mem s (ih ht)

theorem exists_of_mem_mergePairs {row : List (String × Token)} {t : Token}
    (ht : t ∈ mergePairs words row) : ∃ s ∈ row.map Prod.snd, s.position = t.position := by
  fun_induction mergePairs words row with
  | case1 => cases ht
  | case2 gap u => exact ⟨t, ht, rfl⟩
  | case3 gap s gap' u row kind normalized hpair ih =>
      obtain rfl | ht := List.mem_cons.1 ht
      · exact ⟨s, List.mem_cons_self, rfl⟩
      · obtain ⟨v, hv, hposition⟩ := ih ht
        exact ⟨v, List.mem_cons_of_mem s (List.mem_cons_of_mem u hv), hposition⟩
  | case4 gap s gap' u row hpair ih =>
      obtain rfl | ht := List.mem_cons.1 ht
      · exact ⟨t, List.mem_cons_self, rfl⟩
      · obtain ⟨v, hv, hposition⟩ := ih ht
        exact ⟨v, List.mem_cons_of_mem s hv, hposition⟩

end Single

/-- The tokens cover the question as they are read, and so do they when pairs are made one. -/
theorem tokenize_covers (d : Dictionary) (question : String) :
    Covers question ((scan d 0 [] question.toList).map Prod.snd) ∧
      Covers question (tokenize d question) := by
  have hread : Spread 0 question.toList (scan d 0 [] question.toList) :=
    spread_scan d 0 [] rfl question.toList
  obtain ⟨merged, hmerged, hspread⟩ := exists_spread_mergePairs d hread
  rw [tokenize, ← hmerged]
  exact ⟨hread.covers, hspread.covers⟩

end AskSql.Token
