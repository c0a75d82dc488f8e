import AskSql.Json.Writer
import AskSql.Proofs.Json.Numeral

/-!
# Reading what was written

The reader gives back a document as it was written, and says where it ends (`value?_chars`).  So a
written document can be told from whatever follows it (`chars_append_unique`).
-/

namespace AskSql.Json

/-! ### Texts -/

theorem hexValue?_hexDigit : ∀ n < 16, hexValue? (hexDigit n) = some n := by
  decide

theorem hex?_control {n : Nat} (h : n < 0x20) :
    hex? '0' '0' (hexDigit (n / 16)) (hexDigit (n % 16)) = some n := by
  have hzero : hexValue? '0' = some 0 := by decide
  simp only [hex?, hzero, hexValue?_hexDigit (n / 16) (by omega),
    hexValue?_hexDigit (n % 16) (by omega), Option.bind_eq_bind, Option.bind_some, pure]
  congr 1
  omega

/-- A control character is written by its number. -/
theorem textBody_control {n : Nat} (h : n < 0x20) (rest : List Char) :
    textBody ('\\' :: 'u' :: '0' :: '0' :: hexDigit (n / 16) :: hexDigit (n % 16) :: rest) =
      (textBody rest).map fun (cs, after) => (Char.ofNat n :: cs, after) := by
  have hhigh : isHighHalf n = false := by
    simp only [isHighHalf, Bool.and_eq_false_iff, decide_eq_false_iff_not]
    omega
  have hlow : isLowHalf n = false := by
    simp only [isLowHalf, Bool.and_eq_false_iff, decide_eq_false_iff_not]
    omega
  have hhex := hex?_control h
  -- another escape behind it could be the second half of a pair, were this one the first
  by_cases hpair : ∃ e f g h after, rest = '\\' :: 'u' :: e :: f :: g :: h :: after
  · obtain ⟨e, f, g, h, after, rfl⟩ := hpair
    rw [textBody.eq_3, hhex]
    simp only [hhigh, hlow, Bool.false_eq_true, if_false]
  · rw [textBody.eq_4 _ _ _ _ _ fun e f g h after hrest => hpair ⟨e, f, g, h, after, hrest⟩, hhex]
    simp only [hhigh, hlow, Bool.or_self, Bool.false_eq_true, if_false]

theorem textBody_letter {e c : Char} (hne : e ≠ 'u') (he : unescape? e = some c)
    (rest : List Char) :
    textBody ('\\' :: e :: rest) = (textBody rest).map fun (cs, after) => (c :: cs, after) := by
  rw [textBody.eq_5 _ _ (fun _ _ _ _ _ _ _ _ _ hu _ => hne hu) (fun _ _ _ _ _ hu _ => hne hu), he]

theorem textBody_plain {c : Char} (hquote : c ≠ '"') (hslash : c ≠ '\\') (hnat : ¬ c.toNat < 0x20)
    (rest : List Char) :
    textBody (c :: rest) = (textBody rest).map fun (cs, after) => (c :: cs, after) := by
  rw [textBody.eq_6 _ _ hquote (fun _ _ _ _ _ _ _ _ _ h _ => hslash h)
    (fun _ _ _ _ _ h _ => hslash h) (fun _ _ h _ => hslash h)]
  simp [hslash, hnat]

/-- What is written for a character inside of a text is read as this character. -/
theorem textBody_escape (c : Char) (rest : List Char) :
    textBody (escape c ++ rest) = (textBody rest).map fun (cs, after) => (c :: cs, after) := by
  have hofNat : ∀ n, c.toNat = n → Char.ofNat n = c := fun n hn => by rw [← hn, Char.ofNat_toNat]
  unfold escape
  -- one case for each rule of `escape`, of which the last leaves the character as it is
  split_ifs with hquote hslash hback hfeed hline hreturn htab hcontrol
  · obtain rfl := eq_of_beq hquote
    exact textBody_letter (by decide) (by decide) rest
  · obtain rfl := eq_of_beq hslash
    exact textBody_letter (by decide) (by decide) rest
  · rw [← hofNat 8 (eq_of_beq hback)]
    exact textBody_letter (by decide) (by decide) rest
  · rw [← hofNat 12 (eq_of_beq hfeed)]
    exact textBody_letter (by decide) (by decide) rest
  · obtain rfl := eq_of_beq hline
    exact textBody_letter (by decide) (by decide) rest
  · obtain rfl := eq_of_beq hreturn
    exact textBody_letter (by decide) (by decide) rest
  · obtain rfl := eq_of_beq htab
    exact textBody_letter (by decide) (by decide) rest
  · have hread := textBody_control hcontrol rest
    rwa [hofNat _ rfl] at hread
  · exact textBody_plain (by simpa using hquote) (by simpa using hslash) hcontrol rest

theorem textBody_escapes (cs rest : List Char) :
    textBody (cs.flatMap escape ++ '"' :: rest) = some (cs, rest) := by
  induction cs with
  | nil => exact textBody.eq_2 rest
  | cons c cs ih =>
      rw [List.flatMap_cons, List.append_assoc, textBody_escape, ih]
      rfl

theorem text?_quote (s : String) (rest : List Char) :
    text? (quote s ++ rest) = some (s, rest) := by
  have hquote : quote s ++ rest = '"' :: (s.toList.flatMap escape ++ '"' :: rest) := by
    simp [quote]
  simp only [hquote, text?, textBody_escapes, Option.map_some, String.ofList_toList]

/-! ### Documents -/

mutual

/-- All numbers of a document are numbers of the grammar. -/
def Written : Json → Prop
  | number n => n.WellFormed
  | array items => ItemsWritten items
  | object members => MembersWritten members
  | _ => True

/-- All numbers of some items are. -/
def ItemsWritten : List Json → Prop
  | [] => True
  | j :: js => Written j ∧ ItemsWritten js

/-- All numbers of some members are. -/
def MembersWritten : List (String × Json) → Prop
  | [] => True
  | (_, j) :: ms => Written j ∧ MembersWritten ms

end

theorem skip_cons {c : Char} (h : isGap c = false) (cs : List Char) : skip (c :: cs) = c :: cs := by
  simp [skip, h]

/-- A number begins with a sign or a digit. -/
theorem exists_cons_of_wellFormed {n : Numeral} (h : n.WellFormed) :
    ∃ c cs, n.chars = c :: cs ∧ (c = '-' ∨ Text.isAsciiDigit c = true) := by
  obtain ⟨c, cs, hwhole, hc, -, -⟩ := exists_cons_of_digits h.whole_ne_nil h.whole_digits
  cases hsign : n.negative with
  | true => exact ⟨'-', _, by simp [Numeral.chars, hsign]; rfl, .inl rfl⟩
  | false => exact ⟨c, _, by simp [Numeral.chars, hsign, hwhole]; rfl, .inr hc⟩

theorem ne_of_digit {c : Char} (h : c = '-' ∨ Text.isAsciiDigit c = true) :
    c ≠ 'n' ∧ c ≠ 't' ∧ c ≠ 'f' ∧ c ≠ '"' ∧ c ≠ '[' ∧ c ≠ '{' ∧ c ≠ ']' ∧ isGap c = false := by
  have hne : ∀ x : Char, x ≠ '-' → Text.isAsciiDigit x = false → c ≠ x := by
    rintro x hminus hx rfl
    obtain h | h := h
    · exact hminus h
    · rw [hx] at h
      cases h
  have hgap : c ≠ ' ' ∧ c ≠ '\n' ∧ c ≠ '\t' ∧ c ≠ '\r' :=
    ⟨hne _ (by decide) rfl, hne _ (by decide) rfl, hne _ (by decide) rfl, hne _ (by decide) rfl⟩
  exact ⟨hne _ (by decide) rfl, hne _ (by decide) rfl, hne _ (by decide) rfl,
    hne _ (by decide) rfl, hne _ (by decide) rfl, hne _ (by decide) rfl, hne _ (by decide) rfl,
    by simp [isGap, hgap]⟩

/-- A document begins with a mark of its own. -/
theorem exists_cons_of_written {j : Json} (h : j.Written) :
    ∃ c cs, j.chars = c :: cs ∧ isGap c = false ∧ c ≠ ']' := by
  cases j with
  | null => exact ⟨_, _, rfl, rfl, by decide⟩
  | bool b =>
      cases b with
      | true => exact ⟨_, _, rfl, rfl, by decide⟩
      | false => exact ⟨_, _, rfl, rfl, by decide⟩
  | number n =>
      obtain ⟨c, cs, hchars, hc⟩ := exists_cons_of_wellFormed h
      obtain ⟨-, -, -, -, -, -, hbracket, hgap⟩ := ne_of_digit hc
      exact ⟨c, cs, hchars, hgap, hbracket⟩
  | text s => exact ⟨_, _, rfl, rfl, by decide⟩
  | array items => exact ⟨_, _, rfl, rfl, by decide⟩
  | object members => exact ⟨_, _, rfl, rfl, by decide⟩

theorem value?_number {n : Numeral} (h : n.WellFormed) (fuel : Nat) {rest : List Char}
    (hrest : EndsNumber rest) :
    value? (fuel + 1) (n.chars ++ rest) = some (number n, rest) := by
  obtain ⟨c, cs, hchars, hc⟩ := exists_cons_of_wellFormed h
  obtain ⟨hn, ht, hf, hquote, hbracket, hbrace, -, -⟩ := ne_of_digit hc
  have hread := numeral?_chars h hrest
  rw [hchars, List.cons_append] at hread ⊢
  simp [value?, hn, ht, hf, hquote, hbracket, hbrace, hread]

theorem endsNumber_cons {c : Char} (h : Text.isAsciiDigit c = false ∧ c ≠ '.' ∧ c ≠ 'e' ∧ c ≠ 'E')
    (cs : List Char) : EndsNumber (c :: cs) := by
  intro d hd
  obtain rfl := Option.some.inj hd
  exact h

theorem exists_cons_of_itemChars {j : Json} (h : j.Written) (js : List Json) (rest : List Char) :
    ∃ c cs, itemChars (j :: js) ++ rest = c :: cs ∧ isGap c = false ∧ c ≠ ']' := by
  obtain ⟨c, cs, hchars, hgap, hbracket⟩ := exists_cons_of_written h
  cases js with
  | nil => exact ⟨c, cs ++ rest, by simp [itemChars, hchars], hgap, hbracket⟩
  | cons k js =>
      exact ⟨c, cs ++ ',' :: (itemChars (k :: js) ++ rest), by simp [itemChars, hchars], hgap,
        hbracket⟩

theorem exists_cons_of_memberChars (name : String) (j : Json) (ms : List (String × Json))
    (rest : List Char) : ∃ cs, memberChars ((name, j) :: ms) ++ rest = '"' :: cs := by
  cases ms with
  | nil => exact ⟨_, by simp [memberChars, quote]; rfl⟩
  | cons m ms => exact ⟨_, by simp [memberChars, quote]; rfl⟩

mutual

-- The fuel exceeds the characters of the document, and each part has fewer of them than the whole,
-- so the calls for the parts have fuel enough.

/-- A document is read as it is written, however the text goes on. -/
theorem value?_chars : ∀ (j : Json) (n : Nat) (rest : List Char), j.Written →
    j.chars.length < n → EndsNumber rest → value? n (j.chars ++ rest) = some (j, rest)
  | j, 0, _, _, hlength, _ => absurd hlength (Nat.not_lt_zero _)
  | null, n + 1, rest, _, _, _ => rfl
  | bool true, n + 1, rest, _, _, _ => rfl
  | bool false, n + 1, rest, _, _, _ => rfl
  | number x, n + 1, rest, h, _, hrest => value?_number h n hrest
  | text s, n + 1, rest, _, _, _ => by
      have hread := text?_quote s rest
      exact congrArg (Option.map fun (s, rest) => (text s, rest)) hread
  | array [], n + 1, rest, _, _, _ => rfl
  | array (j :: js), n + 1, rest, h, hlength, _ => by
      obtain ⟨c, cs, hcons, hgap, hbracket⟩ := exists_cons_of_itemChars h.1 js (']' :: rest)
      have hchars : (array (j :: js)).chars ++ rest = '[' :: c :: cs := by
        rw [← hcons]
        simp [chars]
      -- one step less is left for the items, which are shorter by the bracket
      have hread := items?_chars j js n rest h (by
        simp only [chars, List.length_append, List.length_cons, List.length_nil] at hlength
        omega)
      rw [hcons] at hread
      simp [hchars, value?, skip_cons hgap, hbracket, hread]
  | object [], n + 1, rest, _, _, _ => rfl
  | object ((name, j) :: ms), n + 1, rest, h, hlength, _ => by
      obtain ⟨cs, hcons⟩ := exists_cons_of_memberChars name j ms ('}' :: rest)
      have hchars : (object ((name, j) :: ms)).chars ++ rest = '{' :: '"' :: cs := by
        rw [← hcons]
        simp [chars]
      have hread := members?_chars name j ms n rest h (by
        simp only [chars, List.length_append, List.length_cons, List.length_nil] at hlength
        omega)
      rw [hcons] at hread
      have hgap : isGap '"' = false := rfl
      simp [hchars, value?, skip_cons hgap, hread]

theorem items?_chars : ∀ (j : Json) (js : List Json) (n : Nat) (rest : List Char),
    ItemsWritten (j :: js) → (itemChars (j :: js)).length + 1 < n →
      items? n (itemChars (j :: js) ++ ']' :: rest) = some (j :: js, rest)
  | j, js, 0, _, _, hlength => absurd hlength (Nat.not_lt_zero _)
  | j, [], n + 1, rest, h, hlength => by
      have hread := value?_chars j n (']' :: rest) h.1 (by
        simp only [itemChars] at hlength
        omega) (endsNumber_cons (by decide) rest)
      have hgap : isGap ']' = false := rfl
      simp [itemChars, items?, hread, skip_cons hgap]
  | j, k :: js, n + 1, rest, h, hlength => by
      obtain ⟨c, cs, hcons, hstart, -⟩ := exists_cons_of_itemChars h.2.1 js (']' :: rest)
      have hread := value?_chars j n (',' :: c :: cs) h.1 (by
        simp only [itemChars, List.length_append, List.length_cons] at hlength
        omega) (endsNumber_cons (by decide) _)
      have hitems := items?_chars k js n rest h.2 (by
        simp only [itemChars, List.length_append, List.length_cons] at hlength ⊢
        omega)
      have hchars : itemChars (j :: k :: js) ++ ']' :: rest = j.chars ++ ',' :: c :: cs := by
        rw [← hcons]
        simp [itemChars]
      have hgap : isGap ',' = false := rfl
      rw [hcons] at hitems
      simp [hchars, items?, hread, skip_cons hgap, skip_cons hstart, hitems]

theorem members?_chars : ∀ (name : String) (j : Json) (ms : List (String × Json)) (n : Nat)
    (rest : List Char), MembersWritten ((name, j) :: ms) →
      (memberChars ((name, j) :: ms)).length + 1 < n →
        members? n (memberChars ((name, j) :: ms) ++ '}' :: rest) = some ((name, j) :: ms, rest)
  | name, j, ms, 0, _, _, hlength => absurd hlength (Nat.not_lt_zero _)
  | name, j, [], n + 1, rest, h, hlength => by
      obtain ⟨c, cs, hvalue, hstart, -⟩ := exists_cons_of_itemChars h.1 [] ('}' :: rest)
      rw [itemChars] at hvalue
      have hread := value?_chars j n ('}' :: rest) h.1 (by
        simp only [memberChars, List.length_append, List.length_cons] at hlength
        omega) (endsNumber_cons (by decide) rest)
      have hname := text?_quote name (':' :: (j.chars ++ '}' :: rest))
      have hcolon : isGap ':' = false := rfl
      have hbrace : isGap '}' = false := rfl
      rw [hvalue] at hread hname
      simp [memberChars, members?, hvalue, hname, skip_cons hcolon, skip_cons hstart, hread,
        skip_cons hbrace]
  | name, j, (name', k) :: ms, n + 1, rest, h, hlength => by
      obtain ⟨cs, hnext⟩ := exists_cons_of_memberChars name' k ms ('}' :: rest)
      obtain ⟨c, ds, hvalue, hstart, -⟩ := exists_cons_of_itemChars h.1 [] (',' :: '"' :: cs)
      rw [itemChars] at hvalue
      have hread := value?_chars j n (',' :: '"' :: cs) h.1 (by
        simp only [memberChars, List.length_append, List.length_cons] at hlength
        omega) (endsNumber_cons (by decide) _)
      have hmembers := members?_chars name' k ms n rest h.2 (by
        simp only [memberChars, List.length_append, List.length_cons] at hlength ⊢
        omega)
      have hname := text?_quote name (':' :: (j.chars ++ ',' :: '"' :: cs))
      have hchars : memberChars ((name, j) :: (name', k) :: ms) ++ '}' :: rest =
          quote name ++ ':' :: c :: ds := by
        rw [← hvalue, ← hnext]
        simp [memberChars]
      have hcolon : isGap ':' = false := rfl
      have hcomma : isGap ',' = false := rfl
      have hquote : isGap '"' = false := rfl
      rw [hvalue] at hread hname
      rw [hnext] at hmembers
      simp [hchars, members?, hname, skip_cons hcolon, skip_cons hstart, hread, skip_cons hcomma,
        skip_cons hquote, hmembers]

end

/-- A document can be told from what follows it. -/
theorem chars_append_unique {j k : Json} (hj : j.Written) (hk : k.Written) {rest rest' : List Char}
    (hrest : EndsNumber rest) (hrest' : EndsNumber rest')
    (h : j.chars ++ rest = k.chars ++ rest') : j = k ∧ rest = rest' := by
  have hread := value?_chars j (j.chars.length + k.chars.length + 1) rest hj (by omega) hrest
  have hread' := value?_chars k (j.chars.length + k.chars.length + 1) rest' hk (by omega) hrest'
  rw [h, hread'] at hread
  obtain ⟨rfl, rfl⟩ := Prod.mk.inj (Option.some.inj hread)
  exact ⟨rfl, rfl⟩

/-- A written document is read back. -/
theorem parse?_render {j : Json} (h : j.Written) : parse? j.render = some j := by
  obtain ⟨c, cs, hchars, hgap, -⟩ := exists_cons_of_written h
  have hskip : skip j.chars = j.chars := by
    rw [hchars, skip_cons hgap]
  have hnone : EndsNumber [] := fun _ hc => by cases hc
  have hread := value?_chars j (j.chars.length + 1) [] h (Nat.lt_succ_self _) hnone
  rw [List.append_nil] at hread
  simp only [parse?, render, String.toList_ofList, hskip, hread]
  rfl

end AskSql.Json
