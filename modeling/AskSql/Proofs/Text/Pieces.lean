import AskSql.Text.Blank

/-!
# Texts that are cut and joined

A text that is cut at some characters has pieces in which none of them is left.  Pieces of this kind
that are joined by a character come back when the text is cut there (`Text.split_intercalate`,
`Text.pieces_intercalate`).  A joined text begins with its first piece, ends with its last one, and
has the characters of the pieces and those that are put between them.  There are as many pieces as
there are characters that are kept behind one that is cut (`Text.length_pieces`).
-/

namespace AskSql.Text

section Characters

variable {cut : Char → Bool} {c : Char} {cs p : List Char} {ps : List (List Char)}

theorem splitChars_eq_splitOnP (cut : Char → Bool) (cs : List Char) :
    splitChars cut cs = cs.splitOnP cut := by
  induction cs with
  | nil => rfl
  | cons c cs ih =>
      rw [List.splitOnP_cons_eq_if_modifyHead, ← ih, splitChars]
      split
      · rfl
      · split
        · next hnil => exact absurd hnil (splitChars_ne_nil cut cs)
        · next hcons => rw [hcons, List.modifyHead_cons]

theorem splitChars_of_uncut (h : ∀ c ∈ p, cut c = false) : splitChars cut p = [p] := by
  rw [splitChars_eq_splitOnP]
  exact List.splitOnP_eq_singleton h

theorem splitChars_append_cons (hc : cut c = true) (p cs : List Char) :
    splitChars cut (p ++ c :: cs) = splitChars cut p ++ splitChars cut cs := by
  rw [splitChars_eq_splitOnP, splitChars_eq_splitOnP, splitChars_eq_splitOnP]
  exact List.splitOnP_append_cons p cs hc

/-- A joined text is cut where its pieces are, and between them. -/
theorem splitChars_intercalate (hc : cut c = true) (hne : ps ≠ []) :
    splitChars cut ([c].intercalate ps) = ps.flatMap (splitChars cut) := by
  induction ps with
  | nil => exact absurd rfl hne
  | cons p ps ih =>
      cases ps with
      | nil => rw [List.intercalate_singleton, List.flatMap_singleton]
      | cons q qs =>
          rw [List.flatMap_cons, ← ih (List.cons_ne_nil q qs), List.intercalate_cons_cons,
            List.append_assoc, List.singleton_append, splitChars_append_cons hc]

/-- The pieces that were joined by a character come back where the text is cut at it. -/
theorem splitChars_intercalate_of_uncut (hc : cut c = true) (hne : ps ≠ [])
    (h : ∀ p ∈ ps, ∀ d ∈ p, cut d = false) : splitChars cut ([c].intercalate ps) = ps := by
  rw [splitChars_intercalate hc hne, List.flatMap_def,
    List.map_congr_left fun p hp => splitChars_of_uncut (h p hp), ← List.flatMap_def,
    List.flatMap_singleton']

/-- Cutting adds no characters. -/
theorem mem_of_mem_splitChars (hp : p ∈ splitChars cut cs) (hc : c ∈ p) : c ∈ cs := by
  induction cs generalizing p with
  | nil =>
      obtain rfl := List.mem_singleton.1 hp
      exact hc
  | cons d cs ih =>
      rw [splitChars] at hp
      split at hp
      · obtain rfl | hp := List.mem_cons.1 hp
        · cases hc
        · exact List.mem_cons_of_mem d (ih hp hc)
      · split at hp
        · next hnil => exact absurd hnil (splitChars_ne_nil cut cs)
        · next piece pieces hcons =>
            obtain rfl | hp := List.mem_cons.1 hp
            · obtain rfl | hc := List.mem_cons.1 hc
              · exact List.mem_cons_self
              · exact List.mem_cons_of_mem d (ih (hcons ▸ List.mem_cons_self) hc)
            · exact List.mem_cons_of_mem d (ih (hcons ▸ List.mem_cons_of_mem piece hp) hc)

theorem exists_mem_splitChars (hmem : c ∈ cs) (hc : cut c = false) :
    ∃ p ∈ splitChars cut cs, c ∈ p := by
  induction cs with
  | nil => cases hmem
  | cons d cs ih =>
      rw [splitChars]
      split
      · next hd =>
          obtain rfl | hmem := List.mem_cons.1 hmem
          · rw [hc] at hd
            cases hd
          · obtain ⟨p, hp, hcp⟩ := ih hmem
            exact ⟨p, List.mem_cons_of_mem [] hp, hcp⟩
      · split
        · next hnil => exact absurd hnil (splitChars_ne_nil cut cs)
        · next piece pieces hcons =>
            obtain rfl | hmem := List.mem_cons.1 hmem
            · exact ⟨c :: piece, List.mem_cons_self, List.mem_cons_self⟩
            · obtain ⟨p, hp, hcp⟩ := ih hmem
              rw [hcons] at hp
              obtain rfl | hp := List.mem_cons.1 hp
              · exact ⟨d :: p, List.mem_cons_self, List.mem_cons_of_mem d hcp⟩
              · exact ⟨p, List.mem_cons_of_mem _ hp, hcp⟩

/-- How often two characters that follow each other are in a relation, with one in front. -/
def adjacent (r : Char → Char → Bool) (before : Char) : List Char → Nat
  | [] => 0
  | c :: cs => (if r before c then 1 else 0) + adjacent r c cs

/-- The second of two characters begins a piece. -/
def beginsPiece (cut : Char → Bool) (before c : Char) : Bool :=
  cut before && !cut c

/-- The first piece counts only if it has begun here and has something in it. -/
theorem adjacent_beginsPiece (h : splitChars cut cs = p :: ps) (before : Char) :
    adjacent (beginsPiece cut) before cs =
      (if cut before && !p.isEmpty then 1 else 0) + (ps.filter fun q => !q.isEmpty).length := by
  induction cs generalizing before p ps with
  | nil =>
      obtain ⟨rfl, rfl⟩ := List.cons.inj h
      simp [adjacent]
  | cons c cs ih =>
      rw [splitChars] at h
      rw [adjacent, beginsPiece]
      split at h
      · next hcut =>
          obtain ⟨rfl, rfl⟩ := List.cons.inj h
          cases hrest : splitChars cut cs with
          | nil => exact absurd hrest (splitChars_ne_nil cut cs)
          | cons q qs =>
              rw [ih hrest, hcut]
              cases q <;> simp [Nat.add_comm]
      · next hkept =>
          split at h
          · next hnil => exact absurd hnil (splitChars_ne_nil cut cs)
          · next q qs hrest =>
              obtain ⟨rfl, rfl⟩ := List.cons.inj h
              rw [ih hrest, Bool.eq_false_iff.2 hkept]
              simp

end Characters

/-- A text that neither begins nor ends with a blank has none to drop. -/
theorem trimChars_eq_self {cs : List Char} (hhead : ∀ c ∈ cs.head?, isBlank c = false)
    (hlast : ∀ c ∈ cs.getLast?, isBlank c = false) : trimChars cs = cs := by
  have hdrop {cs : List Char} (h : ∀ c ∈ cs.head?, isBlank c = false) :
      cs.dropWhile isBlank = cs := by
    cases cs with
    | nil => rfl
    | cons c cs => rw [List.dropWhile_cons_of_neg (by simp [h c rfl])]
  rw [trimChars, hdrop hhead, hdrop (by rwa [List.head?_reverse]), List.reverse_reverse]

section Texts

variable {cut : Char → Bool} {c : Char} {sep s p : String} {ps : List String}

/-- The characters of a text that is put together again. -/
theorem map_ofList_map_toList (ps : List String) :
    (ps.map String.toList).map String.ofList = ps := by
  rw [List.map_map]
  exact (List.map_congr_left fun p _ => String.ofList_toList).trans (List.map_id ps)

theorem split_intercalate (hsep : sep.toList = [c]) (hc : cut c = true) (hne : ps ≠ [])
    (h : ∀ p ∈ ps, ∀ d ∈ p.toList, cut d = false) : split cut (sep.intercalate ps) = ps := by
  have hchars : splitChars cut ([c].intercalate (ps.map String.toList)) = ps.map String.toList :=
    splitChars_intercalate_of_uncut hc (by simpa using hne) fun q hq => by
      obtain ⟨p, hp, rfl⟩ := List.mem_map.1 hq
      exact h p hp
  rw [split, String.toList_intercalate, hsep, hchars, map_ofList_map_toList]

/-- A piece without the character comes back whatever the others are. -/
theorem mem_split_intercalate (hsep : sep.toList = [c]) (hc : cut c = true) (hp : p ∈ ps)
    (huncut : ∀ d ∈ p.toList, cut d = false) : p ∈ split cut (sep.intercalate ps) := by
  have hne : ps.map String.toList ≠ [] := List.ne_nil_of_mem (List.mem_map_of_mem hp)
  rw [split, String.toList_intercalate, hsep, splitChars_intercalate hc hne]
  have hpiece : p.toList ∈ (ps.map String.toList).flatMap (splitChars cut) := by
    refine List.mem_flatMap.2 ⟨p.toList, List.mem_map_of_mem hp, ?_⟩
    rw [splitChars_of_uncut huncut]
    exact List.mem_singleton_self _
  exact List.mem_map.2 ⟨p.toList, hpiece, String.ofList_toList⟩

theorem pieces_eq_filter_split (cut : Char → Bool) (s : String) :
    pieces cut s = (split cut s).filter fun p => !p.isEmpty := by
  rw [pieces, split, List.filter_map]
  congr 2
  funext p
  cases p <;> simp

theorem pieces_intercalate (hsep : sep.toList = [c]) (hc : cut c = true)
    (h : ∀ p ∈ ps, p ≠ "" ∧ ∀ d ∈ p.toList, cut d = false) :
    pieces cut (sep.intercalate ps) = ps := by
  by_cases hne : ps = []
  · subst hne
    rfl
  · rw [pieces_eq_filter_split, split_intercalate hsep hc hne fun p hp => (h p hp).2]
    exact List.filter_eq_self.2 fun p hp => by simpa using (h p hp).1

theorem mem_of_mem_pieces (hp : p ∈ pieces cut s) (hc : c ∈ p.toList) :
    c ∈ s.toList ∧ cut c = false := by
  obtain ⟨cs, hcs, rfl⟩ := List.mem_map.1 hp
  rw [String.toList_ofList] at hc
  have hmem := (List.mem_filter.1 hcs).1
  exact ⟨mem_of_mem_splitChars hmem hc, not_cut_of_mem_splitChars hmem hc⟩

theorem ne_empty_of_mem_pieces (hp : p ∈ pieces cut s) : p ≠ "" := by
  rw [pieces_eq_filter_split] at hp
  simpa using (List.mem_filter.1 hp).2

theorem pieces_ne_nil (hc : c ∈ s.toList) (hcut : cut c = false) : pieces cut s ≠ [] := by
  obtain ⟨p, hp, hmem⟩ := exists_mem_splitChars hc hcut
  have hkept : p ∈ (splitChars cut s.toList).filter fun q => !q.isEmpty :=
    List.mem_filter.2 ⟨hp, by simpa using List.ne_nil_of_mem hmem⟩
  exact List.ne_nil_of_mem (List.mem_map_of_mem hkept)

/-- Each piece begins behind a character that is cut, if such a one is put in front. -/
theorem length_pieces {front : Char} (hfront : cut front = true) (s : String) :
    (pieces cut s).length = adjacent (beginsPiece cut) front s.toList := by
  cases hsplit : splitChars cut s.toList with
  | nil => exact absurd hsplit (splitChars_ne_nil cut s.toList)
  | cons p ps =>
      rw [adjacent_beginsPiece hsplit, pieces, hsplit, hfront]
      cases p <;> simp [Nat.add_comm]

end Texts

section Joined

variable {ws : List String} {w sep : String} {c : Char}

theorem exists_intercalate_cons (sep w : String) (ws : List String) :
    ∃ behind, sep.intercalate (w :: ws) = w ++ behind := by
  cases ws with
  | nil => exact ⟨"", by simp⟩
  | cons v ws => exact ⟨sep ++ sep.intercalate (v :: ws), by simp [String.append_assoc]⟩

theorem intercalate_concat (hne : ws ≠ []) :
    sep.intercalate (ws ++ [w]) = sep.intercalate ws ++ sep ++ w := by
  rw [String.intercalate_append_of_ne_nil hne (List.cons_ne_nil w []), String.intercalate_singleton]

theorem exists_intercalate_concat (sep : String) (ws : List String) (w : String) :
    ∃ before, sep.intercalate (ws ++ [w]) = before ++ w := by
  by_cases hne : ws = []
  · exact ⟨"", by simp [hne]⟩
  · exact ⟨sep.intercalate ws ++ sep, intercalate_concat hne⟩

theorem intercalate_concat_ne_empty (hw : w ≠ "") : sep.intercalate (ws ++ [w]) ≠ "" := by
  obtain ⟨before, hjoined⟩ := exists_intercalate_concat sep ws w
  rw [hjoined]
  exact fun h => hw (String.append_eq_empty_iff.1 h).2

theorem mem_intercalate (h : c ∈ (sep.intercalate ws).toList) :
    c ∈ sep.toList ∨ ∃ w ∈ ws, c ∈ w.toList := by
  induction ws with
  | nil => cases h
  | cons w ws ih =>
      cases ws with
      | nil =>
          rw [String.intercalate_singleton] at h
          exact .inr ⟨w, List.mem_cons_self, h⟩
      | cons v ws =>
          rw [String.intercalate_cons_cons, String.toList_append, String.toList_append,
            List.mem_append, List.mem_append] at h
          obtain (h | h) | h := h
          · exact .inr ⟨w, List.mem_cons_self, h⟩
          · exact .inl h
          · exact (ih h).imp id fun ⟨u, hu, hc⟩ => ⟨u, List.mem_cons_of_mem w hu, hc⟩

end Joined

end AskSql.Text
