import AskSql.Question.Tokenize

/-!
# What is taken for a token

A token takes the piece that the longest match gives, a word where no rule matches, and a single
character where no word begins.  `Lexeme.Takes` has a case for each of these ways.  A rule counts
only where it matches something, a word is not empty, and a match ends on the text that it was
started on; so on every way at least one character is taken, and the piece and what is left behind
it are the text.  Reading counts the characters behind the first one: one more is the length of the
piece (`more_ofRule`, `more_ofWord`, `more_ofChar`), and what is read is what is taken
(`takes_read`).
-/

namespace AskSql.Lexeme

open Text

/-! ### Matches -/

section Matches

variable {cs : List Char} {r : TokenRule} {found : TokenRule × Nat} {size : Nat} {e : Cursor}

theorem matched?_eq_some (h : r.pattern.matchAt? none cs = some e)
    (hsize : cs.length = e.rest.length + size) (hpos : 0 < size) :
    matched? cs r = some (r, size) := by
  rw [matched?, h, Option.bind_some, if_pos (by omega), hsize, Nat.add_sub_cancel_left]

/-- A match is counted from its beginning to where it ends, if it does not end at once. -/
theorem matched?_spec (h : matched? cs r = some found) :
    found.1 = r ∧ 0 < found.2 ∧
      ∃ e, r.pattern.matchAt? none cs = some e ∧ cs.length = e.rest.length + found.2 := by
  obtain ⟨e, hmatch, hfound⟩ := Option.bind_eq_some_iff.1 h
  split at hfound
  · next hless =>
      obtain rfl := Option.some.inj hfound
      exact ⟨rfl, Nat.sub_pos_of_lt hless, e, hmatch, (Nat.add_sub_of_le (Nat.le_of_lt hless)).symm⟩
  · cases hfound

theorem longer_eq_some {best : Option (TokenRule × Nat)} {next : TokenRule × Nat}
    (h : longer best next = some found) : best = some found ∨ next = found := by
  cases best with
  | none => exact .inr (Option.some.inj h)
  | some b =>
      rw [longer] at h
      split at h
      · exact .inr (Option.some.inj h)
      · exact .inl h

theorem mem_of_foldl_longer {all : List (TokenRule × Nat)} {best : Option (TokenRule × Nat)}
    (h : all.foldl longer best = some found) : best = some found ∨ found ∈ all := by
  induction all generalizing best with
  | nil => exact .inl h
  | cons next all ih =>
      rw [List.foldl_cons] at h
      obtain hbest | hlater := ih h
      · obtain hbest | rfl := longer_eq_some hbest
        · exact .inl hbest
        · exact .inr List.mem_cons_self
      · exact .inr (List.mem_cons_of_mem next hlater)

/-- The best match is one of the matches: of its rule, and not empty. -/
theorem bestRule?_spec (h : bestRule? cs = some (r, size)) :
    0 < size ∧ ∃ e, r.pattern.matchAt? none cs = some e ∧ cs.length = e.rest.length + size := by
  obtain hnone | hmem := mem_of_foldl_longer h
  · cases hnone
  · obtain ⟨s, -, hmatched⟩ := List.mem_filterMap.1 hmem
    obtain ⟨rfl, hpos, hends⟩ := matched?_spec hmatched
    exact ⟨hpos, hends⟩

/-- The characters up to the end of a match, and those that are left behind it. -/
theorem take_append_of_matchAt? {p : Pattern} {last : Option Char}
    (h : p.matchAt? last cs = some e) (hsize : cs.length = e.rest.length + size) :
    cs.take size ++ e.rest = cs := by
  obtain ⟨front, hfront⟩ := p.ends_suffix ⟨last, cs, []⟩ e (List.mem_of_head? h)
  dsimp only at hfront
  have hlength : front.length = size := by
    rw [← hfront, List.length_append] at hsize
    omega
  rw [← hfront, ← hlength, List.take_left]

end Matches

/-! ### Pieces -/

/-- The first text begins with the second one, which is taken for a token, and the third one is
left. -/
inductive Takes : List Char → List Char → List Char → Prop where
  | rule {cs : List Char} {r : TokenRule} {size : Nat} {e : Cursor}
      (hbest : bestRule? cs = some (r, size)) (hmatch : r.pattern.matchAt? none cs = some e) :
      Takes cs (cs.take size) e.rest
  | word {cs : List Char} (hnone : bestRule? cs = none) (hne : cs.takeWhile isWordPart ≠ []) :
      Takes cs (cs.takeWhile isWordPart) (cs.dropWhile isWordPart)
  | char {c : Char} {cs : List Char} (hnone : bestRule? (c :: cs) = none)
      (hother : isWordPart c = false) : Takes (c :: cs) [c] cs

namespace Takes

variable {cs piece rest : List Char}

theorem append_eq (h : Takes cs piece rest) : piece ++ rest = cs := by
  cases h with
  | rule hbest hmatch =>
      obtain ⟨-, e, hends, hsize⟩ := bestRule?_spec hbest
      obtain rfl := Option.some.inj (hmatch.symm.trans hends)
      exact take_append_of_matchAt? hmatch hsize
  | word hnone hne => exact List.takeWhile_append_dropWhile
  | char hnone hother => rfl

theorem ne_nil (h : Takes cs piece rest) : piece ≠ [] := by
  cases h with
  | rule hbest hmatch =>
      obtain ⟨hpos, e, -, hsize⟩ := bestRule?_spec hbest
      rw [← List.length_pos_iff, List.length_take]
      omega
  | word hnone hne => exact hne
  | char hnone hother => exact List.cons_ne_nil _ _

end Takes

/-! ### Reading -/

theorem more_ofRule {cs : List Char} {r : TokenRule} {size : Nat}
    (h : bestRule? cs = some (r, size)) : (ofRule cs r size).more + 1 = (cs.take size).length := by
  obtain ⟨hpos, e, -, hsize⟩ := bestRule?_spec h
  rw [List.length_take, Nat.min_eq_left (by omega)]
  exact Nat.sub_add_cancel hpos

theorem more_ofWord (d : Dictionary) {word : List Char} (hne : word ≠ []) :
    (ofWord d (String.ofList word)).more + 1 = word.length := by
  have hmore : (ofWord d (String.ofList word)).more = word.length - 1 := by
    unfold ofWord
    dsimp only
    split <;> rw [String.toList_ofList]
  rw [hmore]
  exact Nat.sub_add_cancel (List.length_pos_iff.2 hne)

theorem more_ofChar (c : Char) : (ofChar c).more + 1 = [c].length :=
  rfl

/-- The ways of reading are those of taking a piece, and each counts the characters of its piece. -/
theorem exists_takes_read (d : Dictionary) (c : Char) (cs : List Char) :
    ∃ piece rest, Takes (c :: cs) piece rest ∧ (read d c cs).more + 1 = piece.length := by
  unfold read
  split
  · next r size hbest =>
      obtain ⟨-, e, hmatch, -⟩ := bestRule?_spec hbest
      exact ⟨_, _, .rule hbest hmatch, more_ofRule hbest⟩
  · next hnone =>
      split
      · next hword =>
          have hother : isWordPart c = false := by
            rw [Bool.eq_false_iff]
            intro hpart
            rw [List.takeWhile_cons_of_pos hpart] at hword
            cases hword
          exact ⟨_, _, .char hnone hother, more_ofChar c⟩
      · next hne => exact ⟨_, _, .word hnone hne, more_ofWord d hne⟩

/-- What is read is what is taken. -/
theorem takes_read (d : Dictionary) (c : Char) (cs : List Char) :
    Takes (c :: cs) (c :: cs.take (read d c cs).more) (cs.drop (read d c cs).more) := by
  obtain ⟨piece, rest, htakes, hmore⟩ := exists_takes_read d c cs
  have htake : (c :: cs).take piece.length = piece := by
    rw [← htakes.append_eq, List.take_left]
  have hdrop : (c :: cs).drop piece.length = rest := by
    rw [← htakes.append_eq, List.drop_left]
  rw [← hmore, List.take_succ_cons] at htake
  rw [← hmore, List.drop_succ_cons] at hdrop
  rwa [htake, hdrop]

end AskSql.Lexeme
