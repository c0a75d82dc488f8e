import AskSql.Text.Blank
import AskSql.Text.Letter

/-!
# Patterns of text

A small language of patterns with ordered choice and greedy repetition.  `Pattern.ends` lists every
place where a match that starts at a cursor can end, the preferred one first: the first branch of
a choice before the second, more repetitions before fewer.  A match takes the first of them.

Every end lies on the text that was given (`ends_suffix`), so a match is always a piece of it.
-/

namespace AskSql.Text

/-- A pattern of text. -/
inductive Pattern where
  /-- Matches nothing, everywhere. -/
  | empty
  /-- One character that passes a test. -/
  | one (accepts : Char → Bool)
  /-- The one after the other. -/
  | seq (first second : Pattern)
  /-- The first, or else the second. -/
  | alt (first second : Pattern)
  /-- Any number of times, the more the better. -/
  | repeated (body : Pattern)
  /-- The place between a character of a word and one that is none. -/
  | edge
  /-- Keeps what the body matched under a number. -/
  | capture (index : Nat) (body : Pattern)

/-- A place in a text: the character before it, what follows, and what was captured so far. -/
structure Cursor where
  last : Option Char
  rest : List Char
  captured : List (Nat × String) := []

/-- What lies between a cursor and a later one on the same text. -/
def Cursor.upTo (c later : Cursor) : List Char :=
  c.rest.take (c.rest.length - later.rest.length)

/-- Just one of the two characters around the cursor belongs to a word. -/
def Cursor.atEdge (c : Cursor) : Bool :=
  c.last.any isWordChar != c.rest.head?.any isWordChar

/-- The ends of at most `n` further steps that each move on, the longest way first. -/
def repeatEnds (step : Cursor → List Cursor) : Nat → Cursor → List Cursor
  | 0, c => [c]
  | n + 1, c =>
    ((step c).filter fun d => d.rest.length < c.rest.length).flatMap (repeatEnds step n) ++ [c]

namespace Pattern

/-- The ends of all matches that start at a cursor, the preferred one first. -/
def ends : Pattern → Cursor → List Cursor
  | empty, c => [c]
  | one accepts, c =>
    match c.rest with
    | [] => []
    | d :: rest => if accepts d then [{ c with last := some d, rest }] else []
  | seq first second, c => (first.ends c).flatMap second.ends
  | alt first second, c => first.ends c ++ second.ends c
  | repeated body, c => repeatEnds body.ends c.rest.length c
  | edge, c => if c.atEdge then [c] else []
  | capture index body, c =>
    (body.ends c).map fun d =>
      { d with captured := (index, String.ofList (c.upTo d)) :: d.captured }

/-- The preferred match that starts here. -/
def matchAt? (p : Pattern) (last : Option Char) (cs : List Char) : Option Cursor :=
  (p.ends { last, rest := cs }).head?

/-- Some match starts here and uses up the text. -/
def matchesAll (p : Pattern) (s : String) : Bool :=
  (p.ends { last := none, rest := s.toList }).any (·.rest.isEmpty)

/-- A piece of text, with what was captured in it. -/
structure Found where
  text : String
  captured : List (Nat × String)
  after : Cursor

/-- The captured text of a number, if that part took part in the match. -/
def Found.get? (f : Found) (index : Nat) : Option String :=
  f.captured.lookup index

/-- The first match at or after a place. -/
def findFrom? (p : Pattern) : Option Char → List Char → Option Found
  | last, [] =>
    (p.matchAt? last []).map fun d => ⟨"", d.captured, d⟩
  | last, c :: cs =>
    match p.matchAt? last (c :: cs) with
    | some d =>
      some ⟨String.ofList ((c :: cs).take ((c :: cs).length - d.rest.length)), d.captured, d⟩
    | none => p.findFrom? (some c) cs

/-- The first match in a text. -/
def find? (p : Pattern) (s : String) : Option Found :=
  p.findFrom? none s.toList

/-- Matches that do not overlap, from left to right, at most `n`. -/
def findAllFrom (p : Pattern) : Nat → Option Char → List Char → List Found
  | 0, _, _ => []
  | n + 1, last, cs =>
    match p.findFrom? last cs with
    | none => []
    | some f =>
      f :: (if f.after.rest.length < cs.length then
        p.findAllFrom n f.after.last f.after.rest
      else [])

/-- All matches in a text that do not overlap, from left to right. -/
def findAll (p : Pattern) (s : String) : List Found :=
  p.findAllFrom (s.toList.length + 1) none s.toList

/-- One pattern after the other. -/
def ofSeq : List Pattern → Pattern
  | [] => empty
  | [p] => p
  | p :: ps => seq p (ofSeq ps)

/-- The first of several patterns that leads to a match; none matches where there is no choice. -/
def ofAlt : List Pattern → Pattern
  | [] => one fun _ => false
  | [p] => p
  | p :: ps => alt p (ofAlt ps)

/-- The pattern once or, failing that, not at all. -/
def optional (p : Pattern) : Pattern :=
  alt p empty

/-- The pattern at least once. -/
def atLeastOnce (p : Pattern) : Pattern :=
  seq p (repeated p)

/-- The pattern a given number of times. -/
def times (p : Pattern) (n : Nat) : Pattern :=
  ofSeq (List.replicate n p)

/-- One of the characters listed. -/
def oneOf (cs : String) : Pattern :=
  one fun c => cs.toList.contains c

/-- At least one blank. -/
def blanks : Pattern :=
  atLeastOnce (one isBlank)

/-- At least one decimal digit of any script. -/
def digits : Pattern :=
  atLeastOnce (one isDecimalDigit)

/-- A character of a text stands for a small letter of a pattern when it is that letter or folds
to it: the capital, the Kelvin sign for `k`, the long s for `s`. -/
def folds (small c : Char) : Bool :=
  c == small || (isAsciiSmall small && (c.toLower == small ||
    (small == 'k' && c.toNat == 0x212A) || (small == 's' && c.toNat == 0x17F)))

/-- A text given in small letters, in any case. -/
def word (s : String) : Pattern :=
  ofSeq (s.toList.map fun c => one (folds c))

/-- Words given in small letters, in any case, with at least one blank between them. -/
def phrase (s : String) : Pattern :=
  ofSeq (s.toList.map fun c => if c == ' ' then blanks else one (folds c))

/-- The first of several phrases. -/
def phrases (ss : List String) : Pattern :=
  ofAlt (ss.map phrase)

/-- Words exactly as they stand, with at least one blank between them. -/
def exact (s : String) : Pattern :=
  ofSeq (s.toList.map fun c => if c == ' ' then blanks else one (· == c))

/-- The first of several exact phrases. -/
def exacts (ss : List String) : Pattern :=
  ofAlt (ss.map exact)

theorem repeatEnds_suffix {step : Cursor → List Cursor}
    (hstep : ∀ c, ∀ d ∈ step c, d.rest <:+ c.rest) (n : Nat) (c : Cursor) :
    ∀ d ∈ repeatEnds step n c, d.rest <:+ c.rest := by
  induction n generalizing c with
  | zero => simp [repeatEnds]
  | succ n ih =>
    intro d hd
    simp only [repeatEnds, List.mem_append, List.mem_flatMap, List.mem_singleton] at hd
    rcases hd with ⟨e, he, hd⟩ | rfl
    · exact (ih e d hd).trans (hstep c e ((List.mem_filter.1 he).1))
    · exact List.suffix_refl _

/-- Every match ends on the text it was started on. -/
theorem ends_suffix (p : Pattern) (c : Cursor) : ∀ d ∈ p.ends c, d.rest <:+ c.rest := by
  induction p generalizing c with
  | empty => simp [ends]
  | one accepts =>
    intro d hd
    simp only [ends] at hd
    split at hd
    · simp at hd
    · rename_i e rest heq
      split at hd
      · simp only [List.mem_singleton] at hd
        subst hd
        simp [heq]
      · simp at hd
  | seq first second ih₁ ih₂ =>
    intro d hd
    simp only [ends, List.mem_flatMap] at hd
    obtain ⟨e, he, hd⟩ := hd
    exact (ih₂ e d hd).trans (ih₁ c e he)
  | alt first second ih₁ ih₂ =>
    intro d hd
    simp only [ends, List.mem_append] at hd
    exact hd.elim (ih₁ c d) (ih₂ c d)
  | repeated body ih => exact repeatEnds_suffix ih _ c
  | edge =>
    intro d hd
    simp only [ends] at hd
    split at hd <;> simp_all
  | capture index body ih =>
    intro d hd
    simp only [ends, List.mem_map] at hd
    obtain ⟨e, he, rfl⟩ := hd
    exact ih c e he

end Pattern

end AskSql.Text
