import AskSql.Json.Decode
import AskSql.Proofs.Decimal.Notation

/-!
# Taking back what was written

What a decoder makes of a document that was written for it.  A record whose members are among its
part names, in their order and each once, is taken part by part (`record?_object`), and an
alternative by its tag (`alternatives?_object`).  Room for nesting runs out only where the document
is nested deeper than that (`Origin.Admits`), and holding a document back asks no more of it than
that its numbers have values (`Readable`).
-/

namespace AskSql

namespace Numeral

theorem value_eq_ofDigitChars (ds : List Char) : value ds = Nat.ofDigitChars 10 ds 0 := by
  simp only [value, Nat.ofDigitChars, digitValue, Nat.mul_comm]
  rfl

@[simp] theorem value_digitChars (n : Nat) : value (Decimal.digitChars n) = n := by
  rw [value_eq_ofDigitChars, Decimal.ofDigitChars_digitChars]

/-- A whole number that fits 64 bits, with or without sign, has itself as value. -/
theorem value?_ofInt {n : Int} (hlow : -2 ^ 63 ≤ n) (hhigh : n < 2 ^ 64) :
    (ofInt n).value? = some (.whole n) := by
  have h63 : Nat.pow 2 63 = 9223372036854775808 := by decide
  have h64 : Nat.pow 2 64 = 18446744073709551616 := by decide
  simp only [value?, ofInt, value_digitChars, decide_eq_true_eq, h63, h64]
  by_cases hn : n < 0
  · have hbounds : (decide (0 < (n.natAbs : Int)) &&
        decide ((n.natAbs : Int) ≤ (9223372036854775808 : Nat))) = true := by
      simp only [Bool.and_eq_true, decide_eq_true_eq]
      omega
    rw [if_pos hn, if_pos hbounds, Int.ofNat_natAbs_of_nonpos (by omega), neg_neg]
  · rw [if_neg hn, if_pos (by omega), Int.natAbs_of_nonneg (by omega)]

end Numeral

namespace Json

/-! ### Room and values -/

/-- All numbers have values, so that only its depth decides whether a document fits. -/
def Readable (j : Json) : Prop :=
  ∀ room, j.depth ≤ room → j.fits room = true

/-- There is room for the document. -/
def Origin.Admits : Origin → Json → Prop
  | direct room, j => j.depth ≤ room
  | held, _ => True

theorem hold_eq_some {o : Origin} {j : Json} (h : o.Admits j) (hj : j.Readable) :
    o.hold j = some j := by
  cases o with
  | direct room => simp [Origin.hold, hj room h]
  | held => rfl

theorem readable_text (s : String) : (text s).Readable := fun room _ => by cases room <;> rfl

theorem readable_bool (b : Bool) : (bool b).Readable := fun room _ => by cases room <;> rfl

theorem readable_null : null.Readable := fun room _ => by cases room <;> rfl

theorem readable_number {n : Numeral} (h : n.value?.isSome = true) : (number n).Readable :=
  fun room _ => by cases room <;> simpa [fits] using h

theorem depth_le_of_mem_items {j : Json} {js : List Json} (h : j ∈ js) :
    j.depth ≤ depthOfItems js := by
  induction js with
  | nil => cases h
  | cons k ks ih =>
      rw [depthOfItems]
      rcases List.mem_cons.1 h with rfl | h
      · exact Nat.le_max_left _ _
      · exact (ih h).trans (Nat.le_max_right _ _)

theorem depth_le_of_mem_members {m : String × Json} {ms : List (String × Json)} (h : m ∈ ms) :
    m.2.depth ≤ depthOfMembers ms := by
  induction ms with
  | nil => cases h
  | cons k ks ih =>
      rw [depthOfMembers]
      rcases List.mem_cons.1 h with rfl | h
      · exact Nat.le_max_left _ _
      · exact (ih h).trans (Nat.le_max_right _ _)

theorem depth_lt_of_mem {m : String × Json} {ms : List (String × Json)} (h : m ∈ ms) :
    m.2.depth < (object ms).depth :=
  Nat.lt_succ_of_le (depth_le_of_mem_members h)

theorem itemsFit_iff {room : Nat} {js : List Json} :
    itemsFit room js = true ↔ ∀ j ∈ js, j.fits room = true := by
  induction js with
  | nil => simp [itemsFit]
  | cons j js ih => simp [itemsFit, ih]

theorem membersFit_iff {room : Nat} {ms : List (String × Json)} :
    membersFit room ms = true ↔ ∀ m ∈ ms, m.2.fits room = true := by
  induction ms with
  | nil => simp [membersFit]
  | cons m ms ih => simp [membersFit, ih]

theorem readable_array {js : List Json} (h : ∀ j ∈ js, j.Readable) : (array js).Readable := by
  intro room hroom
  rw [depth] at hroom
  obtain ⟨room, rfl⟩ : ∃ r, room = r + 1 := ⟨room - 1, by omega⟩
  rw [fits, itemsFit_iff]
  intro j hj
  have := depth_le_of_mem_items hj
  exact h j hj room (by omega)

theorem readable_object {ms : List (String × Json)} (h : ∀ m ∈ ms, m.2.Readable) :
    (object ms).Readable := by
  intro room hroom
  rw [depth] at hroom
  obtain ⟨room, rfl⟩ : ∃ r, room = r + 1 := ⟨room - 1, by omega⟩
  rw [fits, membersFit_iff]
  intro m hm
  have := depth_le_of_mem_members hm
  exact h m hm room (by omega)

/-- There is room for the members of an object that there is room for. -/
theorem Origin.Admits.members {o : Origin} {ms : List (String × Json)}
    (h : o.Admits (object ms)) : ∃ inner, o.inner = some inner ∧ ∀ m ∈ ms, inner.Admits m.2 := by
  cases o with
  | held => exact ⟨.held, rfl, fun _ _ => trivial⟩
  | direct room =>
      change depthOfMembers ms + 1 ≤ room at h
      obtain ⟨room, rfl⟩ : ∃ r, room = r + 1 := ⟨room - 1, by omega⟩
      refine ⟨.direct room, rfl, fun m hm => ?_⟩
      have := depth_le_of_mem_members hm
      change m.2.depth ≤ room
      omega

/-- There is room for the items of an array that there is room for. -/
theorem Origin.Admits.items {o : Origin} {js : List Json} (h : o.Admits (array js)) :
    ∃ inner, o.inner = some inner ∧ ∀ j ∈ js, inner.Admits j := by
  cases o with
  | held => exact ⟨.held, rfl, fun _ _ => trivial⟩
  | direct room =>
      change depthOfItems js + 1 ≤ room at h
      obtain ⟨room, rfl⟩ : ∃ r, room = r + 1 := ⟨room - 1, by omega⟩
      refine ⟨.direct room, rfl, fun j hj => ?_⟩
      have := depth_le_of_mem_items hj
      change j.depth ≤ room
      omega

/-! ### Numbers and lists -/

theorem int?_int {low high n : Int} (o : Origin) (hlow : -2 ^ 63 ≤ n) (hhigh : n < 2 ^ 64)
    (h : low ≤ n ∧ n ≤ high) : int? low high o (int n) = some n := by
  simp [int?, int, Numeral.value?_ofInt hlow hhigh, h]

theorem int64?_int {n : Int} (o : Origin) (hlow : -2 ^ 63 ≤ n) (hhigh : n < 2 ^ 63) :
    int64? o (int n) = some n :=
  int?_int o hlow (by omega) ⟨by simpa using hlow, by simp; omega⟩

theorem nat?_nat {bits n : Nat} (o : Origin) (hbits : bits ≤ 64) (h : n < 2 ^ bits) :
    nat? bits o (nat n) = some n := by
  have hle : 2 ^ bits ≤ 2 ^ 64 := Nat.pow_le_pow_right (by decide) hbits
  have hint : int? 0 (Nat.pow 2 bits - 1) o (int n) = some (n : Int) := by
    refine int?_int o (by omega) (by omega) ⟨by omega, ?_⟩
    change (n : Int) ≤ ((2 ^ bits : Nat) : Int) - 1
    omega
  rw [nat?, nat, hint]
  rfl

theorem readable_int {n : Int} (hlow : -2 ^ 63 ≤ n) (hhigh : n < 2 ^ 64) : (int n).Readable :=
  readable_number (by rw [Numeral.value?_ofInt hlow hhigh]; rfl)

theorem float?_origin (o : Origin) (j : Json) : float? o j = float? .held j := by
  cases j <;> rfl

theorem readable_float {x y : Float} (h : float? .held (float x) = some y) :
    (float x).Readable := by
  by_cases hx : x.isFinite = true
  · rw [float, if_pos hx] at h ⊢
    obtain ⟨v, hv, -⟩ := Option.map_eq_some_iff.1 h
    exact readable_number (by rw [hv]; rfl)
  · rw [float, if_neg hx]
    exact readable_null

theorem mapM_eq_some_self {α : Type} {f : α → Option α} {xs : List α} :
    xs.mapM f = some xs ↔ ∀ x ∈ xs, f x = some x := by
  induction xs with
  | nil => simp
  | cons x xs ih =>
      rw [List.forall_mem_cons, ← ih, List.mapM_cons]
      cases hx : f x with
      | none => simp
      | some y =>
          cases hxs : xs.mapM f with
          | none => simp
          | some ys => simp

/-- A list is taken back if each of its items is. -/
theorem list?_array {α : Type} {f : Decoder α} {g : α → Json} {o : Origin} {xs : List α}
    {P : α → Prop} (h : o.Admits (array (xs.map g)))
    (hf : ∀ o, ∀ x ∈ xs, o.Admits (g x) → (f o (g x) = some x ↔ P x)) :
    list? f o (array (xs.map g)) = some xs ↔ ∀ x ∈ xs, P x := by
  obtain ⟨inner, hinner, hitems⟩ := h.items
  have hmap : list? f o (array (xs.map g)) = xs.mapM fun x => f inner (g x) := by
    simp [list?, hinner, Function.comp_def]
  rw [hmap, mapM_eq_some_self]
  refine forall₂_congr fun x hx => hf inner x hx (hitems (g x) (List.mem_map_of_mem hx))

/-! ### Members -/

section Members

variable {α : Type} (name : String)

@[simp] theorem map_fst_field (j : Json) : (field name j).map Prod.fst = [name] := rfl

theorem names_field (j : Json) : ((field name j).map Prod.fst).Sublist [name] :=
  List.Sublist.refl _

theorem names_fieldIfSome (f : α → Json) (a : Option α) :
    ((fieldIfSome name f a).map Prod.fst).Sublist [name] := by
  cases a with
  | none => exact List.nil_sublist _
  | some a => exact List.Sublist.refl _

theorem names_fieldIfAny (f : α → Json) (xs : List α) :
    ((fieldIfAny name f xs).map Prod.fst).Sublist [name] := by
  cases xs with
  | nil => exact List.nil_sublist _
  | cons x xs => exact List.Sublist.refl _

theorem names_fieldIfTrue (flag : Bool) :
    ((fieldIfTrue name flag).map Prod.fst).Sublist [name] := by
  cases flag with
  | false => exact List.nil_sublist _
  | true => exact List.Sublist.refl _

theorem names_append {ms ns : List (String × Json)} {as bs : List String}
    (hms : (ms.map Prod.fst).Sublist as) (hns : (ns.map Prod.fst).Sublist bs) :
    ((ms ++ ns).map Prod.fst).Sublist (as ++ bs) := by
  rw [List.map_append]
  exact hms.append hns

theorem readable_field {j : Json} (h : j.Readable) : ∀ m ∈ field name j, m.2.Readable :=
  List.forall_mem_singleton.2 h

theorem readable_fieldIfSome {f : α → Json} (h : ∀ a, (f a).Readable) (a : Option α) :
    ∀ m ∈ fieldIfSome name f a, m.2.Readable := by
  cases a with
  | none => exact fun _ hm => absurd hm List.not_mem_nil
  | some a => exact readable_field name (h a)

theorem readable_fieldIfTrue (flag : Bool) : ∀ m ∈ fieldIfTrue name flag, m.2.Readable := by
  cases flag with
  | false => exact fun _ hm => absurd hm List.not_mem_nil
  | true => exact readable_field name (Json.readable_bool true)

theorem readable_list {f : α → Json} {xs : List α} (h : ∀ x ∈ xs, (f x).Readable) :
    (Json.list f xs).Readable := by
  refine Json.readable_array fun j hj => ?_
  obtain ⟨x, hx, rfl⟩ := List.mem_map.1 hj
  exact h x hx

theorem readable_fieldIfAny {f : α → Json} {xs : List α} (h : ∀ x ∈ xs, (f x).Readable) :
    ∀ m ∈ fieldIfAny name f xs, m.2.Readable := by
  rw [fieldIfAny]
  split
  · exact fun _ hm => absurd hm List.not_mem_nil
  · exact readable_field name (readable_list h)

theorem readable_append {ms ns : List (String × Json)} (hms : ∀ m ∈ ms, m.2.Readable)
    (hns : ∀ m ∈ ns, m.2.Readable) : ∀ m ∈ ms ++ ns, m.2.Readable :=
  List.forall_mem_append.2 ⟨hms, hns⟩

/-- A kind beside the parts of an alternative. -/
theorem readable_tagged {kind : String} {ms : List (String × Json)}
    (h : ∀ m ∈ ms, m.2.Readable) : (object (field name (text kind) ++ ms)).Readable :=
  readable_object (readable_append (readable_field name (readable_text kind)) h)

end Members

/-- Members that stand in the order of the names of a record are its parts. -/
theorem parts?_object {names : List String} {ms : List (String × Json)}
    (h : (ms.map Prod.fst).Sublist names) (hnames : names.Nodup) :
    parts? names (object ms) = some (names.map fun name => ms.lookup name) := by
  have honce : (names.all fun name => decide (occurrences name ms ≤ 1)) = true := by
    rw [List.all_eq_true]
    intro name _
    have hcount : occurrences name ms = (ms.map Prod.fst).count name := by
      rw [occurrences, List.count, List.countP_map]
      rfl
    rw [decide_eq_true_eq, hcount]
    exact List.nodup_iff_count_le_one.1 (h.nodup hnames) name
  rw [parts?, if_pos honce]

/-- A record is taken part by part, with room for each part. -/
theorem record?_object {α : Type} {names : List String} {ms : List (String × Json)} {o : Origin}
    (take : Origin → List (Option Json) → Option α) (h : o.Admits (object ms))
    (hnames : (ms.map Prod.fst).Sublist names) (hnodup : names.Nodup) :
    ∃ inner : Origin, (∀ m ∈ ms, inner.Admits m.2) ∧
      record? names take o (object ms) = take inner (names.map fun name => ms.lookup name) := by
  obtain ⟨inner, hinner, hmembers⟩ := h.members
  refine ⟨inner, hmembers, ?_⟩
  simp [record?, hinner, parts?_object hnames hnodup]

/-- An alternative is taken by the function that stands under its tag. -/
theorem alternatives?_object {α : Type} {tag name : String}
    {names : List (String × (Json → Option α))} {take : Json → Option α}
    {ms : List (String × Json)} {o : Origin} (htake : names.lookup name = some take)
    (htag : tag ∉ ms.map Prod.fst) :
    alternatives? tag names o (object (field tag (text name) ++ ms)) =
      (o.hold (object (field tag (text name) ++ ms))).bind fun _ => take (object ms) := by
  have hheld : ∀ j k, o.hold j = some k → k = j := by
    intro j k hk
    cases o with
    | held => exact (Option.some.inj hk).symm
    | direct room =>
        rw [Origin.hold] at hk
        split at hk
        · exact (Option.some.inj hk).symm
        · cases hk
  have hrest : ms.filter (fun m => m.1 != tag) = ms := by
    refine List.filter_eq_self.2 fun m hm => bne_iff_ne.2 ?_
    rintro rfl
    exact htag (List.mem_map_of_mem hm)
  have honce : occurrences tag (field tag (text name) ++ ms) = 1 := by
    have hnone : ms.countP (fun m => m.1 == tag) = 0 := by
      refine List.countP_eq_zero.2 fun m hm h => htag ?_
      rw [← beq_iff_eq.1 h]
      exact List.mem_map_of_mem hm
    simp [occurrences, field, hnone]
  cases hhold : o.hold (object (field tag (text name) ++ ms)) with
  | none => simp [alternatives?, tagged?, hhold]
  | some k =>
      obtain rfl := hheld _ _ hhold
      have hname : (field tag (text name) ++ ms).lookup tag = some (text name) := by
        simp [field]
      have hdrop : (field tag (text name) ++ ms).filter (fun m => m.1 != tag) = ms := by
        simp [field, hrest]
      have htagged : tag? names o (text name) = some take := by
        cases o <;> exact htake
      simp [alternatives?, tagged?, hhold, honce, hname, hdrop, htagged]

/-- An alternative that there is room for and whose numbers have values. -/
theorem alternatives?_of_admits {α : Type} {tag name : String}
    {names : List (String × (Json → Option α))} {take : Json → Option α}
    {ms : List (String × Json)} {o : Origin} {j : Json} (h : o.Admits j) (hj : j.Readable)
    (heq : j = .object (field tag (.text name) ++ ms)) (htake : names.lookup name = some take)
    (htag : tag ∉ ms.map Prod.fst) :
    alternatives? tag names o j = take (.object ms) := by
  subst heq
  rw [alternatives?_object htake htag, hold_eq_some h hj, Option.bind_some]

/-- The same where it is not known beforehand whether the numbers have values. -/
theorem alternatives?_iff {α : Type} {tag name : String}
    {names : List (String × (Json → Option α))} {take : Json → Option α}
    {ms : List (String × Json)} {o : Origin} {j : Json} {a : α} {P : Prop} (h : o.Admits j)
    (heq : j = .object (field tag (.text name) ++ ms)) (htake : names.lookup name = some take)
    (htag : tag ∉ ms.map Prod.fst) (htaken : take (.object ms) = some a ↔ P)
    (hreadable : P → j.Readable) :
    alternatives? tag names o j = some a ↔ P := by
  subst heq
  rw [alternatives?_object htake htag, ← htaken]
  constructor
  · intro hsome
    obtain ⟨-, -, hsome⟩ := Option.bind_eq_some_iff.1 hsome
    exact hsome
  · intro hsome
    rw [hold_eq_some h (hreadable (htaken.1 hsome)), Option.bind_some]
    exact hsome

theorem map_lookup_names {ms : List (String × Json)} (h : (ms.map Prod.fst).Nodup) :
    (ms.map Prod.fst).map (fun name => ms.lookup name) = ms.map fun m => some m.2 := by
  induction ms with
  | nil => rfl
  | cons m ms ih =>
      rw [List.map_cons, List.nodup_cons] at h
      obtain ⟨hhead, htail⟩ := h
      rw [List.map_cons, List.map_cons, List.map_cons, ← ih htail, List.lookup_cons_self]
      refine congrArg _ (List.map_congr_left fun name hname => ?_)
      have hne : (name == m.1) = false := by
        rw [beq_eq_false_iff_ne]
        rintro rfl
        exact hhead hname
      rw [List.lookup_cons, hne]

/-- Members that stand one for each name are the parts. -/
theorem parts?_own {names : List String} {ms : List (String × Json)}
    {parts : List (Option Json)} (hnames : ms.map Prod.fst = names)
    (hparts : ms.map (fun m => some m.2) = parts) (h : names.Nodup) :
    parts? names (.object ms) = some parts := by
  subst hnames
  rw [parts?_object (List.Sublist.refl _) h, map_lookup_names h, hparts]

/-- An alternative with one part is what is made of the part. -/
theorem onePart?_iff {α β : Type} {take : Decoder α} {make : α → β} {name : String} {j : Json}
    {a : α} (hmake : ∀ b, make b = make a → b = a) :
    (do
      let [part] ← parts? [name] (.object (field name j)) | none
      return make (← required? take .held part)) = some (make a) ↔ take .held j = some a := by
  have hparts : parts? [name] (.object (field name j)) = some [some j] :=
    parts?_own rfl rfl (List.nodup_singleton name)
  rw [hparts]
  cases htake : take .held j with
  | none => simp [required?, htake]
  | some b =>
      simp only [required?, htake, Option.bind_eq_bind, Option.bind_some, Option.pure_def,
        Option.some.injEq]
      exact ⟨hmake b, fun h => h ▸ rfl⟩

theorem choice?_text {α : Type} {names : List (String × α)} {name : String} {a : α}
    (h : names.lookup name = some a) (o : Origin) : choice? names o (.text name) = some a := by
  cases o <;> exact h

theorem optional?_flag (o : Origin) (flag : Bool) :
    optional? bool? false o (if flag then some (.bool true) else none) = some flag := by
  cases flag <;> rfl

/-- A value that is left out where it is absent; null would stand for its absence as well. -/
theorem optional?_nullable {α : Type} {f : Decoder α} {g : α → Json} {o : Origin}
    {a : Option α} (hnull : ∀ x, g x ≠ .null) (h : ∀ x ∈ a, f o (g x) = some x) :
    optional? (nullable? f) none o (a.map g) = some a := by
  cases a with
  | none => rfl
  | some x =>
      have hsome : nullable? f o (g x) = (f o (g x)).map some := by
        cases hg : g x with
        | null => exact absurd hg (hnull x)
        | _ => rfl
      rw [Option.map_some, optional?, hsome, h x rfl]
      rfl

theorem optional?_text (o : Origin) (s : Option String) :
    optional? (nullable? string?) none o (s.map text) = some s :=
  optional?_nullable (fun _ => nofun) fun _ _ => rfl

/-- A list of which every item is taken back. -/
theorem list?_eq_some {α : Type} {f : Decoder α} {g : α → Json} {o : Origin} {xs : List α}
    (hf : ∀ x o, o.Admits (g x) → f o (g x) = some x) (h : o.Admits (list g xs)) :
    list? f o (list g xs) = some xs :=
  (list?_array (P := fun _ => True) h fun o x _ hx => iff_of_true (hf x o hx) trivial).2
    fun _ _ => trivial

end Json

end AskSql
