import AskSql.Compose.Conditions
import AskSql.Proofs.Question.Lexemes
import AskSql.Proofs.Text.Patterns
import AskSql.Question.Component
import AskSql.Question.Recognize
import AskSql.Render.Statement

/-!
# Quoted texts from the question to the statement

A text that a dialect writes between apostrophes is read as one token, means a string with just
this text as its value, becomes the literal of the text, and is written between the same
apostrophes again (`quoteText_survives`).  Four functions treat the marks, each on its own, and
they fit together: `mergeApostrophes` undoes `doubled`, and the pattern of quoted texts, which
takes all it can get, takes the marks inside of a text in pairs and stops at the last one
(`repeatEnds_doubled`).  MySQL is left out, as it also doubles the backslash, which no reader of
questions takes back.
-/

namespace AskSql

open Text Text.Pattern

/-- Pairs of apostrophes made one are what was doubled. -/
theorem mergeApostrophes_doubled (cs : List Char) :
    mergeApostrophes (Dialect.doubled '\'' cs) = cs := by
  induction cs with
  | nil => rfl
  | cons c cs ih =>
      by_cases hc : c = '\''
      · simp [Dialect.doubled, mergeApostrophes, hc, ih]
      · simp [Dialect.doubled, mergeApostrophes, hc, ih]

namespace Dialect

variable {d : Dialect} (hd : d ≠ .mySql) (s : String)

include hd

theorem toList_quoteText :
    (d.quoteText s).toList = '\'' :: (doubled '\'' s.toList ++ ['\'']) := by
  simp [quoteText, hd]

theorem unquoteText_quoteText : unquoteText (d.quoteText s) = s := by
  have hsize : ¬(d.quoteText s).utf8ByteSize < 2 := by
    have hwhole : d.quoteText s =
        String.singleton '\'' ++ String.ofList (doubled '\'' s.toList) ++
          String.singleton '\'' := by
      rw [← String.toList_inj, toList_quoteText hd]
      simp
    have hmark : ('\'').utf8Size = 1 := rfl
    rw [hwhole, String.utf8ByteSize_append, String.utf8ByteSize_append,
      String.utf8ByteSize_singleton, hmark]
    omega
  rw [unquoteText, if_neg hsize, toList_quoteText hd, List.tail_cons, List.dropLast_concat,
    mergeApostrophes_doubled, String.ofList_toList]

end Dialect

/-! ### The pattern of quoted texts -/

namespace Text.Pattern

/-- An apostrophe. -/
def mark : Pattern :=
  .one (· == '\'')

/-- What stands between the marks: other characters, and marks in pairs. -/
def quotedBody : Pattern :=
  .alt (.one (· != '\'')) (.seq mark mark)

theorem quotedText_eq : TokenRule.quotedText =
    .alt (.seq mark (.seq (.repeated quotedBody) mark))
      (ofSeq [.one (· == '"'), .repeated (.one (· != '"')), .one (· == '"')]) := rfl

theorem ends_quotedBody_pair (last : Option Char) (rest : List Char) :
    quotedBody.ends ⟨last, '\'' :: '\'' :: rest, []⟩ = [⟨some '\'', rest, []⟩] := by
  simp [quotedBody, mark, ends]

theorem ends_quotedBody_other {c : Char} (hc : c ≠ '\'') (last : Option Char)
    (rest : List Char) : quotedBody.ends ⟨last, c :: rest, []⟩ = [⟨some c, rest, []⟩] := by
  simp [quotedBody, mark, ends, hc]

theorem ends_quotedBody_closing (last : Option Char) :
    quotedBody.ends ⟨last, ['\''], []⟩ = [] := by
  simp [quotedBody, mark, ends]

/-- The longest run through a text with doubled marks ends in front of the closing mark. -/
theorem repeatEnds_doubled (cs : List Char) (n : Nat) (last : Option Char)
    (hn : (Dialect.doubled '\'' cs).length ≤ n) :
    ∃ last' more, repeatEnds quotedBody.ends n ⟨last, Dialect.doubled '\'' cs ++ ['\''], []⟩ =
      ⟨last', ['\''], []⟩ :: more := by
  -- each mark of the text is written twice, so a pair goes on and a single one ends it
  induction cs generalizing n last with
  | nil =>
      cases n with
      | zero => exact ⟨last, [], rfl⟩
      | succ n =>
          refine ⟨last, [], ?_⟩
          rw [repeatEnds, Dialect.doubled, List.nil_append, ends_quotedBody_closing]
          rfl
  | cons c cs ih =>
      obtain ⟨m, rfl⟩ : ∃ m, n = m + 1 := by
        refine ⟨n - 1, ?_⟩
        simp only [Dialect.doubled] at hn
        split at hn <;> simp only [List.length_cons] at hn <;> omega
      by_cases hc : c = '\''
      · simp only [Dialect.doubled, hc, beq_self_eq_true, if_true, List.length_cons] at hn
        obtain ⟨last', more, hrun⟩ := ih m (some '\'') (by omega)
        simp only [Dialect.doubled, hc, beq_self_eq_true, if_true, List.cons_append]
        rw [repeatEnds_of_step (ends_quotedBody_pair last _) (by simp), hrun]
        exact ⟨last', _, rfl⟩
      · have hne : (c == '\'') = false := beq_false_of_ne hc
        simp only [Dialect.doubled, hne, Bool.false_eq_true, if_false, List.length_cons] at hn
        obtain ⟨last', more, hrun⟩ := ih m (some c) (by omega)
        simp only [Dialect.doubled, hne, Bool.false_eq_true, if_false, List.cons_append]
        rw [repeatEnds_of_step (ends_quotedBody_other hc last _) (by simp), hrun]
        exact ⟨last', _, rfl⟩

/-- The pattern of quoted texts takes a text with doubled marks as a whole. -/
theorem matchAt?_quotedText (cs : List Char) :
    ∃ d, TokenRule.quotedText.matchAt? none ('\'' :: (Dialect.doubled '\'' cs ++ ['\''])) =
      some d ∧ d.rest = [] := by
  let body := Dialect.doubled '\'' cs ++ ['\'']
  obtain ⟨last, more, hrun⟩ := repeatEnds_doubled cs body.length (some '\'') (by simp [body])
  have hopen : mark.ends ⟨none, '\'' :: body, []⟩ = [⟨some '\'', body, []⟩] := rfl
  have hclose : mark.ends ⟨last, ['\''], []⟩ = [⟨some '\'', [], []⟩] := rfl
  refine ⟨⟨some '\'', [], []⟩, ?_, rfl⟩
  rw [matchAt?, quotedText_eq, ends, ends, hopen, List.flatMap_singleton, ends, ends, hrun,
    List.flatMap_cons, hclose]
  rfl

end Text.Pattern

/-! ### One token -/

namespace Lexeme

/-- What matches all there is stays the best. -/
theorem foldl_longer_of_whole {size : Nat} {r : TokenRule} {found : List (TokenRule × Nat)}
    (h : ∀ f ∈ found, f.2 ≤ size) : found.foldl longer (some (r, size)) = some (r, size) := by
  induction found with
  | nil => rfl
  | cons f found ih =>
      obtain ⟨hf, hfound⟩ := List.forall_mem_cons.1 h
      have hstays : longer (some (r, size)) f = some (r, size) := by
        simp only [longer]
        rw [if_neg (Nat.not_lt.2 hf)]
      rw [List.foldl_cons, hstays, ih hfound]

/-- The first rule is the best one wherever it matches all there is. -/
theorem bestRule?_of_first {cs : List Char} {r : TokenRule} {rules : List TokenRule}
    (hall : TokenRule.all = r :: rules) (h : matched? cs r = some (r, cs.length)) :
    bestRule? cs = some (r, cs.length) := by
  rw [bestRule?, hall, List.filterMap_cons_some h, List.foldl_cons]
  refine foldl_longer_of_whole fun f hf => ?_
  obtain ⟨s, -, hs⟩ := List.mem_filterMap.1 hf
  obtain ⟨-, -, e, -, hsize⟩ := matched?_spec hs
  omega

/-- The rule of quoted texts, the first of all. -/
def quotedRule : TokenRule :=
  ⟨.quoted, 1.0, TokenRule.quotedText⟩

theorem read_quoted (words : Dictionary) (cs : List Char) :
    read words '\'' (Dialect.doubled '\'' cs ++ ['\'']) =
      ofRule ('\'' :: (Dialect.doubled '\'' cs ++ ['\''])) quotedRule
        ('\'' :: (Dialect.doubled '\'' cs ++ ['\''])).length := by
  obtain ⟨e, hmatch, hrest⟩ := matchAt?_quotedText cs
  have hwhole : matched? ('\'' :: (Dialect.doubled '\'' cs ++ ['\''])) quotedRule =
      some (quotedRule, ('\'' :: (Dialect.doubled '\'' cs ++ ['\''])).length) := by
    rw [matched?, quotedRule, hmatch, Option.bind_some, hrest, if_pos (by simp)]
    rfl
  simp only [read, bestRule?_of_first rfl hwhole]
  rfl

end Lexeme

variable {d : Dialect} (hd : d ≠ .mySql) (s : String)

/-- The token of a quoted text. -/
def Token.ofQuoted (d : Dialect) (s : String) : Token where
  text := d.quoteText s
  kind := .quoted
  position := 0
  length := (d.quoteText s).utf8ByteSize
  normalized := Text.lowercase s
  confidence := 1.0

include hd in
theorem tokenize_quoteText (words : Dictionary) :
    tokenize words (d.quoteText s) = [Token.ofQuoted d s] := by
  have hchars := Dialect.toList_quoteText hd s
  have htext :
      String.ofList ('\'' :: (Dialect.doubled '\'' s.toList ++ ['\''])) = d.quoteText s := by
    rw [← hchars, String.ofList_toList]
  have hblank : ¬isBlank '\'' = true := by decide
  rw [tokenize, hchars, Token.scan_lexeme _ _ _ hblank, Lexeme.read_quoted, Lexeme.ofRule,
    List.take_length, htext, Dialect.unquoteText_quoteText hd]
  simp only [Lexeme.quotedRule, List.length_cons, Nat.add_sub_cancel, List.take_length,
    List.drop_length, if_true, htext]
  rw [Token.scan_nil, Token.mergePairs, Token.ofQuoted]

/-! ### One string, and its literal -/

/-- The entity of a quoted text. -/
def Entity.ofQuoted (d : Dialect) (s : String) : Entity :=
  ((Entity.ofToken (Token.ofQuoted d s) .string 1.0 "kind").named (Text.lowercase s)).withNote
    "value" s

include hd in
theorem recognize_ofQuoted (schema : Schema) (settings : RecognizerSettings)
    (hsure : settings.minConfidence < 1.0) :
    recognize schema settings [Token.ofQuoted d s] = [Entity.ofQuoted d s] := by
  have hkind : Entity.ofTokenKind? (Token.ofQuoted d s) = some (Entity.ofQuoted d s) := by
    simp only [Entity.ofTokenKind?, Token.ofQuoted, Dialect.unquoteText_quoteText hd]
    rfl
  have hname : ¬(Token.ofQuoted d s).kind.isNameLike = true := Bool.false_ne_true
  have hstays : ∀ mentioned penalty,
      Entity.settle mentioned penalty (Entity.ofQuoted d s) = Entity.ofQuoted d s :=
    fun _ _ => rfl
  have hsure' : decide (settings.minConfidence < (Entity.ofQuoted d s).confidence) = true :=
    decide_eq_true hsure
  simp only [recognize, Entity.recognizeFrom, Entity.recognize?, if_neg hname, hkind,
    List.filterMap_cons, List.filterMap_nil, id, List.filter_cons, hsure', if_true, List.filter_nil,
    List.map_cons, List.map_nil, hstays]

/-- What is written between apostrophes comes through: it is one token that covers all of it, one
string with this value whatever the schema, and a literal that is written in the same way. -/
theorem quoteText_survives {d : Dialect} (hd : d ≠ .mySql) (s : String) (words : Dictionary)
    (schema : Schema) (settings : RecognizerSettings) (hsure : settings.minConfidence < 1.0) :
    ∃ t e, tokenize words (d.quoteText s) = [t] ∧
      (t.kind = .quoted ∧ t.text = d.quoteText s ∧ t.position = 0 ∧
        t.length = (d.quoteText s).utf8ByteSize) ∧
      recognize schema settings [t] = [e] ∧
      (e.kind = .string ∧ e.note? "value" = some s) ∧
      Literal.ofValue e.value e.kind = .text s ∧
      ∀ params, d.value false (Literal.ofValue e.value e.kind) params =
        .ok (d.quoteText s, params) := by
  have hvalue : (Entity.ofQuoted d s).note? "value" = some s := rfl
  have hliteral :
      Literal.ofValue (Entity.ofQuoted d s).value (Entity.ofQuoted d s).kind = .text s := rfl
  refine ⟨.ofQuoted d s, .ofQuoted d s, tokenize_quoteText hd s words, ⟨rfl, rfl, rfl, rfl⟩,
    recognize_ofQuoted hd s schema settings hsure, ⟨rfl, hvalue⟩, hliteral, fun params => ?_⟩
  rw [hliteral]
  rfl

/-- Apostrophes at both ends, around the name of a table. -/
theorem quoteText_survives_orders :
    ∃ t e, tokenize [("orders", "orders")] "'''orders'''" = [t] ∧ t.length = 12 ∧
      recognize { tables := [{ name := "orders", columns := [] }] } {} [t] = [e] ∧
      e.note? "value" = some "'orders'" ∧
      Literal.ofValue e.value e.kind = .text "'orders'" := by
  have hquote : Dialect.sqlite.quoteText "'orders'" = "'''orders'''" := by decide
  obtain ⟨t, e, htokens, ⟨-, -, -, hlength⟩, hentities, ⟨-, hvalue⟩, hliteral, -⟩ :=
    quoteText_survives (d := .sqlite) (by decide) "'orders'" [("orders", "orders")]
      { tables := [{ name := "orders", columns := [] }] } {} (by decide)
  rw [hquote] at htokens hlength
  exact ⟨t, e, htokens, hlength, hentities, hvalue, hliteral⟩

end AskSql
