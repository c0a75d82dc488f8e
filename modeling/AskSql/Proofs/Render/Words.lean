import AskSql.Render.Dialect

/-!
# Words of a statement

A statement is read word by word.  Words are set apart by blanks, but a blank between marks or
inside of brackets does not end a word, so a quoted name, a quoted text and a list in brackets
each belong to one word.  A mark that is written twice ends the quotation and opens the next one
at once; it needs no rule of its own.

`Closed` describes the texts in which every mark and every bracket is closed.  `Spells cs ws` says
that the text `cs` consists of the closed words `ws`, and `Spells.words_eq` that reading such a
text gives these words back.
-/

namespace AskSql.Words

/-- A word of a statement. -/
abbrev Word := List Char

/-- Words one after the other. -/
abbrev Phrase := List Word

/-- The marks between which names and texts stand. -/
def isMark (c : Char) : Bool :=
  c == '\'' || c == '"' || c == '\x60'

/-- The blank between words. -/
def isSpace (c : Char) : Bool :=
  c == ' '

/-- The blanks between words or lines. -/
def isGap (c : Char) : Bool :=
  c == ' ' || c == '\n'

theorem isGap_of_isSpace (c : Char) (h : isSpace c = true) : isGap c = true := by
  simp only [isSpace] at h
  simp [isGap, h]

/-- A character that has no part in the division into words. -/
def isPlain (c : Char) : Bool :=
  !isMark c && c != '(' && c != ')' && !isGap c

/-- Text in which every mark and every bracket is closed.  Whether it may have blanks outside of
them is told by the flag. -/
inductive Closed : Bool → List Char → Prop where
  | nil {gaps : Bool} : Closed gaps []
  | plain {gaps : Bool} {c : Char} (h : isPlain c = true) : Closed gaps [c]
  | gap {c : Char} (h : isGap c = true) : Closed true [c]
  | quoted {gaps : Bool} {m : Char} {cs : List Char} (hm : isMark m = true) (hcs : m ∉ cs) :
      Closed gaps (m :: (cs ++ [m]))
  | group {gaps : Bool} {cs : List Char} (h : Closed true cs) : Closed gaps ('(' :: (cs ++ [')']))
  | append {gaps : Bool} {cs ds : List Char} (hcs : Closed gaps cs) (hds : Closed gaps ds) :
      Closed gaps (cs ++ ds)

/-- Where a reader stands: between which marks, and inside of how many brackets. -/
structure Place where
  mark : Option Char
  depth : Nat

/-- Where the reader stands after another character. -/
def Place.next (p : Place) (c : Char) : Place :=
  match p.mark with
  | some m => if c = m then ⟨none, p.depth⟩ else p
  | none =>
    if isMark c then ⟨some c, p.depth⟩
    else if c = '(' then ⟨none, p.depth + 1⟩
    else if c = ')' then ⟨none, p.depth - 1⟩
    else p

/-- A blank ends a word here. -/
def Place.isOutside (p : Place) : Bool :=
  p.mark.isNone && p.depth == 0

/-- Reads on, with the part of a word that was read so far. -/
def wordsFrom : Place → List Char → List Char → Phrase
  | _, word, [] => [word]
  | p, word, c :: cs =>
    if p.isOutside && isGap c then word :: wordsFrom p [] cs
    else wordsFrom (p.next c) (word ++ [c]) cs

/-- The words of a text. -/
def words (cs : List Char) : Phrase :=
  wordsFrom ⟨none, 0⟩ [] cs

/-! ### Closed texts -/

theorem Closed.cons {gaps : Bool} {c : Char} {cs : List Char} (h : isPlain c = true)
    (hcs : Closed gaps cs) : Closed gaps (c :: cs) :=
  .append (.plain h) hcs

theorem Closed.of_plain {gaps : Bool} {cs : List Char} (h : cs.all isPlain = true) :
    Closed gaps cs := by
  induction cs with
  | nil => exact .nil
  | cons c cs ih =>
      rw [List.all_cons, Bool.and_eq_true] at h
      exact .cons h.1 (ih h.2)

theorem Closed.of_plain_or_gap {cs : List Char}
    (h : (cs.all fun c => isPlain c || isGap c) = true) : Closed true cs := by
  induction cs with
  | nil => exact .nil
  | cons c cs ih =>
      rw [List.all_cons, Bool.and_eq_true, Bool.or_eq_true] at h
      obtain hplain | hgap := h.1
      · exact .cons hplain (ih h.2)
      · exact .append (.gap hgap) (ih h.2)

/-- What needs no blanks may stand where there are some. -/
theorem Closed.with_gaps {gaps : Bool} {cs : List Char} (h : Closed gaps cs) : Closed true cs := by
  induction h with
  | nil => exact .nil
  | plain h => exact .plain h
  | gap h => exact .gap h
  | quoted hm hcs => exact .quoted hm hcs
  | group h _ => exact .group h
  | append _ _ ihcs ihds => exact .append ihcs ihds

/-- A text between marks is closed if the mark is written twice inside of it. -/
theorem Closed.doubled {gaps : Bool} {m : Char} (hm : isMark m = true) (before cs : List Char)
    (hbefore : m ∉ before) :
    Closed gaps (m :: (before ++ Dialect.doubled m cs ++ [m])) := by
  induction cs generalizing before with
  | nil => simpa [Dialect.doubled] using Closed.quoted hm hbefore
  | cons c cs ih =>
      by_cases hc : c = m
      · -- the first of the two marks ends a quotation, the second opens another one
        have hquoted : Closed gaps (m :: (before ++ [m])) := .quoted hm hbefore
        have hnext := hquoted.append (ih [] (by simp))
        simpa [Dialect.doubled, hc] using hnext
      · have hmore : m ∉ before ++ [c] := by
          simp [hbefore, Ne.symm hc]
        simpa [Dialect.doubled, hc] using ih (before ++ [c]) hmore

/-! ### Reading closed texts -/

theorem wordsFrom_quoted {m : Char} {cs : List Char} (hcs : m ∉ cs) (depth : Nat)
    (word rest : List Char) :
    wordsFrom ⟨some m, depth⟩ word (cs ++ m :: rest) =
      wordsFrom ⟨none, depth⟩ (word ++ (cs ++ [m])) rest := by
  induction cs generalizing word with
  | nil => simp [wordsFrom, Place.isOutside, Place.next]
  | cons c cs ih =>
      rw [List.mem_cons, not_or] at hcs
      have hc : c ≠ m := Ne.symm hcs.1
      have hrest := ih hcs.2 (word ++ [c])
      simp only [List.append_assoc, List.singleton_append] at hrest
      simpa [wordsFrom, Place.isOutside, Place.next, hc] using hrest

theorem isPlain_iff {c : Char} :
    isPlain c = true ↔ isMark c = false ∧ c ≠ '(' ∧ c ≠ ')' ∧ isGap c = false := by
  simp [isPlain, and_assoc]

/-- A closed text is taken over into the word as a whole, unless it has blanks and stands outside
of brackets. -/
theorem Closed.wordsFrom_append {gaps : Bool} {cs : List Char} (h : Closed gaps cs) (depth : Nat)
    (hdepth : gaps = true → 0 < depth) (word rest : List Char) :
    wordsFrom ⟨none, depth⟩ word (cs ++ rest) = wordsFrom ⟨none, depth⟩ (word ++ cs) rest := by
  induction h generalizing depth word rest with
  | nil => simp
  | plain h =>
      obtain ⟨hmark, hopen, hclose, hgap⟩ := isPlain_iff.1 h
      simp [wordsFrom, Place.next, hmark, hopen, hclose, hgap]
  | @gap c h =>
      -- a blank can only stand inside of brackets here, where it ends no word
      have hpos : 0 < depth := hdepth rfl
      have hinside : depth ≠ 0 := by omega
      have hblank : c = ' ' ∨ c = '\n' := by simpa [isGap] using h
      have hnext : (Place.mk none depth).next c = ⟨none, depth⟩ := by
        obtain rfl | rfl := hblank <;> rfl
      simp [wordsFrom, Place.isOutside, hinside, hnext]
  | @quoted gaps m cs hm hcs =>
      have hgap : isGap m = false := by
        have hmark : m = '\'' ∨ m = '"' ∨ m = '\x60' := by
          simpa [isMark, or_assoc] using hm
        obtain rfl | rfl | rfl := hmark <;> rfl
      have hrest := wordsFrom_quoted hcs depth (word ++ [m]) rest
      simp only [List.append_assoc, List.singleton_append] at hrest
      simpa [wordsFrom, Place.next, hm, hgap] using hrest
  | @group gaps cs h ih =>
      -- what stands in the brackets is read one level deeper, with the bracket behind it
      have hinner := ih (depth + 1) (fun _ => Nat.succ_pos depth) (word ++ ['(']) (')' :: rest)
      have hopen : isGap '(' = false := rfl
      have hclose : isGap ')' = false := rfl
      simp only [List.append_assoc, List.singleton_append] at hinner
      simpa [wordsFrom, Place.next, isMark, hopen, hclose] using hinner
  | append _ _ ihcs ihds =>
      rw [List.append_assoc, ihcs depth hdepth, ihds depth hdepth, List.append_assoc]

/-! ### Texts made of words -/

/-- The text consists of closed words with a blank of some kind between any two of them. -/
inductive Spells (blank : Char → Bool) : List Char → Phrase → Prop where
  | one {w : List Char} (h : Closed false w) : Spells blank w [w]
  | more {w cs : List Char} {ws : Phrase} {c : Char} (h : Closed false w)
      (hblank : blank c = true) (hrest : Spells blank cs ws) :
      Spells blank (w ++ c :: cs) (w :: ws)

/-- Appends to the last word. -/
def attach : Phrase → List Char → Phrase
  | [], v => [v]
  | [w], v => [w ++ v]
  | w :: ws, v => w :: attach ws v

theorem mem_attach {ws : Phrase} {v w : List Char} (h : w ∈ attach ws v) :
    w ∈ ws ∨ ∃ u, w = u ++ v := by
  induction ws with
  | nil => exact Or.inr ⟨[], by simpa [attach] using h⟩
  | cons u us ih =>
      cases us with
      | nil => exact Or.inr ⟨u, by simpa [attach] using h⟩
      | cons x xs =>
          simp only [attach, List.mem_cons] at h ih ⊢
          obtain h | h := h
          · exact Or.inl (Or.inl h)
          · obtain h | h := ih h
            · exact Or.inl (Or.inr h)
            · exact Or.inr h

namespace Spells

variable {blank : Char → Bool} {cs ds : List Char} {ws vs : Phrase}

/-- A plain word in front of others. -/
theorem plain {w : Word} (h : w.all isPlain = true) (hcs : Spells isSpace cs ws) :
    Spells isSpace (w ++ ' ' :: cs) (w :: ws) :=
  .more (.of_plain h) rfl hcs

theorem append {c : Char} (hcs : Spells blank cs ws) (hc : blank c = true)
    (hds : Spells blank ds vs) : Spells blank (cs ++ c :: ds) (ws ++ vs) := by
  induction hcs with
  | one h => exact .more h hc hds
  | more h hblank _ ih =>
      rw [List.append_assoc]
      exact .more h hblank ih

theorem attach {v : List Char} (hcs : Spells blank cs ws) (hv : Closed false v) :
    Spells blank (cs ++ v) (attach ws v) := by
  induction hcs with
  | one h => exact .one (.append h hv)
  | @more w cs ws c h hblank hrest ih =>
      rw [List.append_assoc]
      cases ws with
      | nil => cases hrest
      | cons u us => exact .more h hblank ih

theorem ne_nil (h : Spells blank cs ws) : ws ≠ [] := by
  cases h <;> simp

theorem mono {blank' : Char → Bool} (h : Spells blank cs ws)
    (hblank : ∀ c, blank c = true → blank' c = true) : Spells blank' cs ws := by
  induction h with
  | one h => exact .one h
  | more h hc _ ih => exact .more h (hblank _ hc) ih

/-- A text made of words is closed. -/
theorem closed (h : Spells isGap cs ws) : Closed true cs := by
  induction h with
  | one h => exact h.with_gaps
  | more h hgap _ ih => exact .append h.with_gaps (.append (.gap hgap) ih)

/-- Where all blanks are the same, the words determine the text. -/
theorem text_unique (hcs : Spells isSpace cs ws) (hds : Spells isSpace ds ws) : cs = ds := by
  -- the words are the same, so both texts go on or stop together
  induction hcs generalizing ds with
  | one _ =>
      cases hds with
      | one _ => rfl
      | more _ _ hrest => exact absurd rfl hrest.ne_nil
  | more _ hspace hrest ih =>
      cases hds with
      | one _ => exact absurd rfl hrest.ne_nil
      | more _ hspace' hrest' =>
          rw [isSpace, beq_iff_eq] at hspace hspace'
          rw [ih hrest', hspace, hspace']

/-- Reading a text made of words gives the words back. -/
theorem words_eq (h : Spells isGap cs ws) : words cs = ws := by
  induction h with
  | @one w h =>
      have hword := h.wordsFrom_append 0 (by simp) [] []
      simpa [words, wordsFrom] using hword
  | @more w cs ws c h hgap _ ih =>
      have hword := h.wordsFrom_append 0 (by simp) [] (c :: cs)
      rw [words, hword]
      simpa [wordsFrom, Place.isOutside, hgap, words] using ih

end Spells

end AskSql.Words
