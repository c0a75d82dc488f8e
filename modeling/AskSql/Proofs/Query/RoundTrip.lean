import AskSql.Proofs.Json.Decoding
import AskSql.Proofs.Query.Document
import AskSql.Proofs.Text.Sorted

/-!
# Queries read back from their text

A query comes back from the text of its document just if each of its floats does
(`Query.ofText?_toText_iff`): every other part does, whatever is left out where it is absent, empty
or false, and wherever a kind stands beside the parts of an alternative.  Whole numbers are those
of their types (`Query.inRange`), and the document is nested no deeper than the reader allows.

A float need not come back, although it is finite and written with digits that stand for no other:
the reader takes the digits for a float before it scales them by a power of ten, and may round
twice.  `Query.ofText?_toText_nearlyOne` has a float below one that comes back as one.

Queries inside of queries are taken back level by level: `Query.TakenBack n` says that of decoders
for queries of less than some depth, and `Query.TakenBack.succ` adds a level.
-/

namespace AskSql

open Json (Origin Decoder Readable field fieldIfSome fieldIfAny fieldIfTrue required? optional?
  record?_object names_append names_field names_fieldIfAny names_fieldIfSome names_fieldIfTrue
  readable_append readable_array readable_bool readable_field readable_fieldIfAny
  readable_fieldIfSome readable_fieldIfTrue readable_float readable_int readable_list
  readable_object readable_tagged readable_text)

/-! ### Members -/

section Members

variable {α : Type} (name : String)

theorem readable_fieldOfItems {js : List Json} (h : ∀ j ∈ js, j.Readable) :
    ∀ m ∈ fieldOfItems name js, m.2.Readable := by
  cases js with
  | nil => exact fun _ hm => absurd hm List.not_mem_nil
  | cons j js => exact readable_field name (readable_array h)

theorem mem_fieldOfItems {js : List Json} {j : Json} (h : itemsPart js = some j) :
    (name, j) ∈ fieldOfItems name js := by
  cases js with
  | nil => cases h
  | cons k ks =>
      cases h
      exact List.mem_singleton_self _

theorem names_fieldOfItems (js : List Json) :
    ((fieldOfItems name js).map Prod.fst).Sublist [name] := by
  cases js with
  | nil => exact List.nil_sublist _
  | cons j js => exact List.Sublist.refl _

end Members

/-! ### Parts without values -/

namespace Reference

theorem names_members (r : Reference) :
    (r.members.map Prod.fst).Sublist ["table", "column", "alias"] :=
  names_append (names_append (names_field _ _) (names_field _ _))
    (names_fieldIfSome _ _ _)

theorem readable_members (r : Reference) : ∀ m ∈ r.members, m.2.Readable :=
  readable_append (readable_append (readable_field _ (readable_text _))
    (readable_field _ (readable_text _))) (readable_fieldIfSome _ readable_text _)

theorem readable_toJson (r : Reference) : r.toJson.Readable :=
  readable_object r.readable_members

theorem ofJson?_members (r : Reference) {o : Origin} (h : o.Admits (.object r.members)) :
    Reference.ofJson? o (.object r.members) = some r := by
  obtain ⟨inner, -, hrecord⟩ := record?_object _ h r.names_members (by decide)
  rw [ofJson?, hrecord]
  obtain ⟨table, column, label⟩ := r
  cases label with
  | none => simp [members, List.lookup_append, required?, optional?, Json.string?]
  | some label =>
      simp [members, List.lookup_append, required?, optional?, Json.string?, Json.nullable?]

theorem ofJson?_toJson (r : Reference) {o : Origin} (h : o.Admits r.toJson) :
    Reference.ofJson? o r.toJson = some r :=
  r.ofJson?_members h

end Reference

theorem Argument.readable_toJson (a : Argument) : a.toJson.Readable := by
  cases a with
  | column c =>
      exact readable_tagged _ (readable_field _ c.readable_toJson)
  | arithmetic left op right =>
      have hleft := readable_field "left" left.readable_toJson
      have hop := readable_field "op" (readable_text op.keyword)
      have hright := readable_field "right" right.readable_toJson
      exact readable_object (readable_append (readable_append (readable_append
        (readable_field _ (readable_text _)) hleft) hop) hright)
  | raw sql =>
      exact readable_tagged _ (readable_field _ (readable_text _))

theorem Argument.ofJson?_toJson (a : Argument) {o : Origin} (h : o.Admits a.toJson) :
    Argument.ofJson? o a.toJson = some a := by
  have hreadable := a.readable_toJson
  cases a with
  | column c =>
      have hc : Reference.ofJson? .held c.toJson = some c := c.ofJson?_toJson trivial
      rw [ofJson?, Json.alternatives?_of_admits h hreadable rfl rfl (by simp)]
      exact (Json.onePart?_iff fun _ => column.inj).2 hc
  | arithmetic left op right =>
      have hleft : Reference.ofJson? .held left.toJson = some left := left.ofJson?_toJson trivial
      have hright : Reference.ofJson? .held right.toJson = some right :=
        right.ofJson?_toJson trivial
      have hparts : Json.parts? ["left", "op", "right"] (.object (field "left" left.toJson ++
          (field "op" (.text op.keyword) ++ field "right" right.toJson))) =
            some [some left.toJson, some (.text op.keyword), some right.toJson] :=
        Json.parts?_own rfl rfl (by decide)
      rw [ofJson?, Json.alternatives?_of_admits h hreadable
        (by rw [toJson, List.append_assoc, List.append_assoc]) rfl (by simp)]
      simp [hparts, required?, hleft, hright, Json.choice?_text op.lookup_keyword]
  | raw sql =>
      have hsql : Json.string? .held (.text sql) = some sql := rfl
      rw [ofJson?, Json.alternatives?_of_admits h hreadable rfl rfl (by simp)]
      exact (Json.onePart?_iff fun _ => raw.inj).2 hsql

namespace Aggregate

theorem names_members (a : Aggregate) :
    (a.members.map Prod.fst).Sublist ["func", "expr", "alias", "distinct"] :=
  names_append (names_append (names_append (names_field _ _)
    (names_field _ _)) (names_fieldIfSome _ _ _)) (names_fieldIfTrue _ _)

theorem readable_members (a : Aggregate) : ∀ m ∈ a.members, m.2.Readable :=
  readable_append (readable_append (readable_append (readable_field _ (readable_text _))
    (readable_field _ a.argument.readable_toJson)) (readable_fieldIfSome _ readable_text _))
    (readable_fieldIfTrue _ _)

theorem ofJson?_members (a : Aggregate) {o : Origin} (h : o.Admits (.object a.members)) :
    Aggregate.ofJson? o (.object a.members) = some a := by
  obtain ⟨inner, hparts, hrecord⟩ := record?_object _ h a.names_members (by decide)
  have hargument := a.argument.ofJson?_toJson
    (hparts ("expr", a.argument.toJson) (by simp [members, field]))
  rw [ofJson?, hrecord]
  simp [members, List.lookup_append, required?, Json.choice?_text a.function.lookup_keyword,
    hargument, Json.optional?_text, Json.optional?_flag]

end Aggregate

namespace Item

theorem readable_toJson (i : Item) : i.toJson.Readable := by
  cases i with
  | column c =>
      exact readable_tagged _ c.readable_members
  | aggregate a =>
      exact readable_tagged _ a.readable_members

theorem ofJson?_toJson (i : Item) {o : Origin} (h : o.Admits i.toJson) :
    Item.ofJson? o i.toJson = some i := by
  have hreadable := i.readable_toJson
  cases i with
  | column c =>
      have hc : Reference.ofJson? .held (.object c.members) = some c := c.ofJson?_members trivial
      have htag : "kind" ∉ c.members.map Prod.fst := fun hmem =>
        absurd (c.names_members.subset hmem) (by decide)
      rw [ofJson?, Json.alternatives?_of_admits h hreadable rfl rfl htag, hc]
      rfl
  | aggregate a =>
      have ha : Aggregate.ofJson? .held (.object a.members) = some a := a.ofJson?_members trivial
      have htag : "kind" ∉ a.members.map Prod.fst := fun hmem =>
        absurd (a.names_members.subset hmem) (by decide)
      rw [ofJson?, Json.alternatives?_of_admits h hreadable rfl rfl htag, ha]
      rfl

end Item

namespace SortKey

theorem readable_toJson (k : SortKey) : k.toJson.Readable :=
  readable_object (readable_append (readable_field _ k.item.readable_toJson)
    (readable_fieldIfSome _ (fun _ => readable_text _) _))

theorem ofJson?_toJson (k : SortKey) {o : Origin} (h : o.Admits k.toJson) :
    SortKey.ofJson? o k.toJson = some k := by
  obtain ⟨inner, hparts, hrecord⟩ := record?_object _ h
    (names_append (names_field _ _) (names_fieldIfSome _ _ _)) (by decide)
  have hitem := k.item.ofJson?_toJson (hparts ("expr", k.item.toJson) (by simp [field]))
  have hdirection : optional? (Json.nullable? (Json.choice? Direction.keywords)) none inner
      (k.direction.map fun d => .text d.keyword) = some k.direction :=
    Json.optional?_nullable (fun _ => nofun) fun d _ => Json.choice?_text d.lookup_keyword inner
  rw [ofJson?]
  refine hrecord.trans ?_
  simp [List.lookup_append, required?, hitem, hdirection]

end SortKey

/-! ### Numbers -/

/-- The float that is read where this one is written is the same. -/
def ReadsBack (x : Float) : Prop :=
  Json.float? .held (.float x) = some x

instance (x : Float) : Decidable (ReadsBack x) :=
  inferInstanceAs (Decidable (_ = _))

/-- A whole number of 64 bits with sign, where it is one. -/
def Literal.inRange : Literal → Bool
  | integer n => decide (-Nat.pow 2 63 ≤ n) && decide (n < Nat.pow 2 63)
  | _ => true

/-- The float that a literal is. -/
def Literal.floats : Literal → List Float
  | float x => [x]
  | _ => []

/-- The literal on the left side is in range. -/
def Operand.inRange : Operand → Bool
  | literal v => v.inRange
  | _ => true

/-- The floats of a left side. -/
def Operand.floats : Operand → List Float
  | literal v => v.floats
  | _ => []

mutual

/-- The whole numbers of a right side fit their types. -/
def Comparand.inRange : Comparand → Bool
  | .literal v => v.inRange
  | .list vs => vs.all Literal.inRange
  | .range low high => low.inRange && high.inRange
  | .daysAgo n => decide (n < Nat.pow 2 32)
  | .subquery q => Query.inRange q
  | .null | .column _ => true

/-- Those of a condition do. -/
def Condition.inRange : Condition → Bool
  | ⟨lhs, _, rhs⟩ => lhs.inRange && Comparand.inRange rhs

/-- Those of some conditions do. -/
def Condition.allInRange : List Condition → Bool
  | [] => true
  | c :: cs => Condition.inRange c && Condition.allInRange cs

/-- Those behind some joins do. -/
def Join.allInRange : List Join → Bool
  | [] => true
  | ⟨_, _, _, conditions⟩ :: js => Condition.allInRange conditions && Join.allInRange js

/-- Those of a query do, its limit included. -/
def Query.inRange : Query → Bool
  | ⟨_, _, joins, filters, _, having, _, limit, _⟩ =>
    Join.allInRange joins && Condition.allInRange filters && Condition.allInRange having &&
      limit.all fun n => decide (n < Nat.pow 2 64)

end

mutual

/-- The floats of a right side, those of its query included. -/
def Comparand.floats : Comparand → List Float
  | .literal v => v.floats
  | .list vs => vs.flatMap Literal.floats
  | .range low high => low.floats ++ high.floats
  | .subquery q => Query.floats q
  | .null | .daysAgo _ | .column _ => []

/-- The floats of a condition. -/
def Condition.floats : Condition → List Float
  | ⟨lhs, _, rhs⟩ => lhs.floats ++ Comparand.floats rhs

/-- The floats of some conditions. -/
def Condition.allFloats : List Condition → List Float
  | [] => []
  | c :: cs => Condition.floats c ++ Condition.allFloats cs

/-- The floats behind some joins. -/
def Join.allFloats : List Join → List Float
  | [] => []
  | ⟨_, _, _, conditions⟩ :: js => Condition.allFloats conditions ++ Join.allFloats js

/-- The floats of a query. -/
def Query.floats : Query → List Float
  | ⟨_, _, joins, filters, _, having, _, _, _⟩ =>
    Join.allFloats joins ++ Condition.allFloats filters ++ Condition.allFloats having

end

theorem forall_floats_flatMap {α : Type} {floats : α → List Float} {xs : List α} :
    (∀ x ∈ xs.flatMap floats, ReadsBack x) ↔ ∀ a ∈ xs, ∀ x ∈ floats a, ReadsBack x := by
  simp only [List.mem_flatMap]
  exact ⟨fun h a ha x hx => h x ⟨a, ha, hx⟩, fun h x ⟨a, ha, hx⟩ => h a ha x hx⟩

theorem Condition.allToJson_eq_map (cs : List Condition) :
    Condition.allToJson cs = cs.map Condition.toJson := by
  induction cs with
  | nil => rfl
  | cons c cs ih => rw [Condition.allToJson, ih, List.map_cons]

theorem Condition.allInRange_iff {cs : List Condition} :
    Condition.allInRange cs = true ↔ ∀ c ∈ cs, c.inRange = true := by
  induction cs with
  | nil => simp [Condition.allInRange]
  | cons c cs ih => rw [Condition.allInRange, Bool.and_eq_true, ih, List.forall_mem_cons]

theorem Condition.allFloats_eq_flatMap (cs : List Condition) :
    Condition.allFloats cs = cs.flatMap Condition.floats := by
  induction cs with
  | nil => rfl
  | cons c cs ih => rw [Condition.allFloats, ih, List.flatMap_cons]

theorem Join.allToJson_eq_map (js : List Join) : Join.allToJson js = js.map Join.toJson := by
  induction js with
  | nil => rfl
  | cons j js ih => rw [Join.allToJson, ih, List.map_cons]

theorem Join.allInRange_iff {js : List Join} :
    Join.allInRange js = true ↔ ∀ j ∈ js, Condition.allInRange j.conditions = true := by
  induction js with
  | nil => simp [Join.allInRange]
  | cons j js ih =>
      obtain ⟨kind, left, right, conditions⟩ := j
      rw [Join.allInRange, Bool.and_eq_true, ih, List.forall_mem_cons]

theorem Join.allFloats_eq_flatMap (js : List Join) :
    Join.allFloats js = js.flatMap fun j => Condition.allFloats j.conditions := by
  induction js with
  | nil => rfl
  | cons j js ih =>
      obtain ⟨kind, left, right, conditions⟩ := j
      rw [Join.allFloats, ih, List.flatMap_cons]

/-! ### Values -/

namespace Literal

theorem bounds_of_inRange {n : Int} (h : (integer n).inRange = true) :
    -2 ^ 63 ≤ n ∧ n < 2 ^ 63 := by
  simpa [inRange] using h

theorem readable_toJson {v : Literal} (hrange : v.inRange = true)
    (hfloats : ∀ x ∈ v.floats, ReadsBack x) : v.toJson.Readable := by
  have hvalue : ∀ (type : String) (j : Json), j.Readable → (toJson.typed type j).Readable :=
    fun type j hj => readable_object (readable_append
      (readable_field _ (readable_text type)) (readable_field _ hj))
  cases v with
  | integer n =>
      obtain ⟨hlow, hhigh⟩ := bounds_of_inRange hrange
      exact hvalue _ _ (readable_int hlow (by omega))
  | float x => exact hvalue _ _ (readable_float (hfloats x (List.mem_singleton_self x)))
  | text s => exact hvalue _ _ (readable_text s)
  | boolean b => exact hvalue _ _ (readable_bool b)
  | date s => exact hvalue _ _ (readable_text s)

/-- A literal is read by the decoder of its type. -/
theorem ofJson?_typed (type : String) {take : Decoder Literal} {j : Json} {o : Origin}
    (htake : types.lookup type = some take) (h : o.Admits (toJson.typed type j)) :
    ∃ inner, Literal.ofJson? o (toJson.typed type j) = take inner j := by
  obtain ⟨inner, -, hrecord⟩ := record?_object _ h
    (names_append (names_field _ _) (names_field _ _)) (by decide)
  refine ⟨inner, hrecord.trans ?_⟩
  simp [List.lookup_append, Json.choice?_text htake]

/-- Only a float may come back as another one. -/
theorem ofJson?_toJson_iff {v : Literal} {o : Origin} (hrange : v.inRange = true)
    (h : o.Admits v.toJson) :
    Literal.ofJson? o v.toJson = some v ↔ ∀ x ∈ v.floats, ReadsBack x := by
  cases v with
  | integer n =>
      obtain ⟨hlow, hhigh⟩ := bounds_of_inRange hrange
      obtain ⟨inner, htaken⟩ := ofJson?_typed "integer" rfl h
      rw [toJson, htaken]
      simp [Json.int64?_int inner hlow hhigh, floats]
  | float x =>
      obtain ⟨inner, htaken⟩ := ofJson?_typed "float" rfl h
      rw [toJson, htaken]
      simp [Json.float?_origin inner, floats, ReadsBack]
  | text s =>
      obtain ⟨inner, htaken⟩ := ofJson?_typed "text" rfl h
      rw [toJson, htaken]
      simp [Json.string?, floats]
  | boolean b =>
      obtain ⟨inner, htaken⟩ := ofJson?_typed "boolean" rfl h
      rw [toJson, htaken]
      simp [Json.bool?, floats]
  | date s =>
      obtain ⟨inner, htaken⟩ := ofJson?_typed "date" rfl h
      rw [toJson, htaken]
      simp [Json.string?, floats]

end Literal

namespace Operand

theorem readable_toJson {a : Operand} (hrange : a.inRange = true)
    (hfloats : ∀ x ∈ a.floats, ReadsBack x) : a.toJson.Readable := by
  cases a with
  | column c =>
      exact readable_tagged _ c.readable_members
  | aggregate a =>
      exact readable_tagged _ a.readable_members
  | monthOf c =>
      exact readable_tagged _ (readable_field _ c.readable_toJson)
  | literal v =>
      exact readable_tagged _ (readable_field _ (v.readable_toJson hrange hfloats))

theorem ofJson?_toJson_iff {a : Operand} {o : Origin} (hrange : a.inRange = true)
    (h : o.Admits a.toJson) :
    Operand.ofJson? o a.toJson = some a ↔ ∀ x ∈ a.floats, ReadsBack x := by
  have hreadable := readable_toJson hrange
  cases a with
  | column c =>
      have hc : Reference.ofJson? .held (.object c.members) = some c := c.ofJson?_members trivial
      have htag : "kind" ∉ c.members.map Prod.fst := fun hmem =>
        absurd (c.names_members.subset hmem) (by decide)
      exact Json.alternatives?_iff h rfl rfl htag (by simp [hc, floats]) hreadable
  | aggregate a =>
      have ha : Aggregate.ofJson? .held (.object a.members) = some a := a.ofJson?_members trivial
      have htag : "kind" ∉ a.members.map Prod.fst := fun hmem =>
        absurd (a.names_members.subset hmem) (by decide)
      exact Json.alternatives?_iff h rfl rfl htag (by simp [ha, floats]) hreadable
  | monthOf c =>
      have hc : Reference.ofJson? .held c.toJson = some c := c.ofJson?_toJson trivial
      exact Json.alternatives?_iff h rfl rfl (by simp)
        ((Json.onePart?_iff fun _ => monthOf.inj).trans (iff_of_true hc (by simp [floats])))
        hreadable
  | literal v =>
      have hv := Literal.ofJson?_toJson_iff (o := .held) hrange trivial
      exact Json.alternatives?_iff h rfl rfl (by simp)
        ((Json.onePart?_iff fun _ => literal.inj).trans hv) hreadable

end Operand

/-! ### Conditions, joins and queries -/

mutual

theorem Comparand.readable_toJson : ∀ c : Comparand, c.inRange = true →
    (∀ x ∈ c.floats, ReadsBack x) → c.toJson.Readable
  | .literal v, hrange, hfloats =>
      readable_tagged _ (readable_field _ (v.readable_toJson hrange hfloats))
  | .list vs, hrange, hfloats =>
      readable_tagged _ (readable_field _ (readable_list fun v hv => v.readable_toJson
        (List.all_eq_true.1 hrange v hv) (forall_floats_flatMap.1 hfloats v hv)))
  | .range low high, hrange, hfloats => by
      obtain ⟨hlow, hhigh⟩ := Bool.and_eq_true_iff.1 hrange
      obtain ⟨hlow', hhigh'⟩ := List.forall_mem_append.1 hfloats
      have hlower := readable_field "low" (low.readable_toJson hlow hlow')
      have hupper := readable_field "high" (high.readable_toJson hhigh hhigh')
      exact readable_object (readable_append (readable_append
        (readable_field _ (readable_text _)) hlower) hupper)
  | .null, _, _ => readable_object (readable_field _ (readable_text _))
  | .daysAgo n, hrange, _ => by
      have hn : n < 2 ^ 32 := by simpa [Comparand.inRange] using hrange
      exact readable_tagged _ (readable_field _ (readable_int (by omega) (by omega)))
  | .column c, _, _ =>
      readable_tagged _ (readable_field _ c.readable_toJson)
  | .subquery q, hrange, hfloats =>
      readable_tagged _ (readable_field _ (Query.readable_toJson q hrange hfloats))

theorem Condition.readable_allToJson : ∀ cs : List Condition, Condition.allInRange cs = true →
    (∀ x ∈ Condition.allFloats cs, ReadsBack x) → ∀ j ∈ Condition.allToJson cs, j.Readable
  | [], _, _ => fun _ hj => absurd hj List.not_mem_nil
  | ⟨lhs, op, rhs⟩ :: cs, hrange, hfloats => by
      simp only [Condition.allInRange, Condition.inRange, Bool.and_eq_true] at hrange
      simp only [Condition.allFloats, Condition.floats, List.forall_mem_append] at hfloats
      obtain ⟨⟨hlhs, hrhs⟩, hcs⟩ := hrange
      obtain ⟨⟨hlhs', hrhs'⟩, hcs'⟩ := hfloats
      have hleft := readable_field "lhs" (lhs.readable_toJson hlhs hlhs')
      have hop := readable_field "op" (readable_text op.keyword)
      have hright := readable_field "rhs" (Comparand.readable_toJson rhs hrhs hrhs')
      rw [Condition.allToJson, List.forall_mem_cons]
      exact ⟨readable_object (readable_append (readable_append hleft hop) hright),
        Condition.readable_allToJson cs hcs hcs'⟩

theorem Join.readable_allToJson : ∀ js : List Join, Join.allInRange js = true →
    (∀ x ∈ Join.allFloats js, ReadsBack x) → ∀ j ∈ Join.allToJson js, j.Readable
  | [], _, _ => fun _ hj => absurd hj List.not_mem_nil
  | ⟨kind, left, right, conditions⟩ :: js, hrange, hfloats => by
      simp only [Join.allInRange, Bool.and_eq_true] at hrange
      simp only [Join.allFloats, List.forall_mem_append] at hfloats
      have hkind := readable_field "kind" (readable_text kind.keyword)
      have hleft := readable_field "left" left.readable_toJson
      have hright := readable_field "right" right.readable_toJson
      have hon := readable_fieldOfItems "conditions"
        (Condition.readable_allToJson conditions hrange.1 hfloats.1)
      rw [Join.allToJson, List.forall_mem_cons]
      exact ⟨readable_object (readable_append (readable_append (readable_append hkind hleft) hright)
        hon), Join.readable_allToJson js hrange.2 hfloats.2⟩

theorem Query.readable_toJson : ∀ q : Query, q.inRange = true → (∀ x ∈ q.floats, ReadsBack x) →
    q.toJson.Readable
  | ⟨source, items, joins, filters, groupBy, having, orderBy, limit, distinct⟩, hrange,
      hfloats => by
      simp only [Query.inRange, Bool.and_eq_true] at hrange
      simp only [Query.floats, List.forall_mem_append] at hfloats
      obtain ⟨⟨⟨hjoins, hfilters⟩, hhaving⟩, hlimit⟩ := hrange
      obtain ⟨⟨hjoins', hfilters'⟩, hhaving'⟩ := hfloats
      have hsource := readable_field "from" (readable_text source)
      have hitems := readable_field "columns"
        (readable_list fun i (_ : i ∈ items) => i.readable_toJson)
      have hjoined := readable_fieldOfItems "joins" (Join.readable_allToJson joins hjoins hjoins')
      have hfiltered := readable_fieldOfItems "where"
        (Condition.readable_allToJson filters hfilters hfilters')
      have hgrouped := readable_fieldIfAny "group_by"
        fun r (_ : r ∈ groupBy) => r.readable_toJson
      have hgroups := readable_fieldOfItems "having"
        (Condition.readable_allToJson having hhaving hhaving')
      have hordered := readable_fieldIfAny "order_by"
        fun k (_ : k ∈ orderBy) => k.readable_toJson
      have hlimited : ∀ m ∈ fieldIfSome "limit" Json.nat limit, m.2.Readable := by
        cases limit with
        | none => exact fun _ hm => absurd hm List.not_mem_nil
        | some n =>
            have hn : n < 2 ^ 64 := by simpa using hlimit
            exact readable_field _ (readable_int (by omega) (by omega))
      refine readable_object ?_
      simp only [List.forall_mem_append, and_assoc]
      exact ⟨hsource, hitems, hjoined, hfiltered, hgrouped, hgroups, hordered, hlimited,
        readable_fieldIfTrue _ _⟩

end

/-- The decoder takes back the queries of less than some depth whose floats come back, and no
others. -/
def Query.TakenBack (n : Nat) (query? : Decoder Query) : Prop :=
  ∀ (q : Query) (o : Origin), q.inRange = true → o.Admits q.toJson → q.toJson.depth < n →
    (query? o q.toJson = some q ↔ ∀ x ∈ q.floats, ReadsBack x)

section Nested

variable {n : Nat} {query? : Decoder Query} (hquery : Query.TakenBack n query?) {o : Origin}

include hquery

theorem Comparand.ofJson?_toJson_iff {c : Comparand} (hrange : c.inRange = true)
    (h : o.Admits c.toJson) (hdepth : c.toJson.depth ≤ n) :
    Comparand.ofJson? query? o c.toJson = some c ↔ ∀ x ∈ c.floats, ReadsBack x := by
  have hreadable := c.readable_toJson hrange
  rw [Comparand.ofJson?]
  -- each kind is told by its tag, and is read back if its parts are
  cases c with
  | literal v =>
      have hv := Literal.ofJson?_toJson_iff (o := .held) hrange trivial
      exact Json.alternatives?_iff h rfl rfl (by simp)
        ((Json.onePart?_iff fun _ => literal.inj).trans hv) hreadable
  | list vs =>
      have hvs : Json.list? Literal.ofJson? .held (Json.list Literal.toJson vs) = some vs ↔
          ∀ v ∈ vs, ∀ x ∈ v.floats, ReadsBack x :=
        Json.list?_array (o := .held) trivial fun o v hv hadmits =>
          Literal.ofJson?_toJson_iff (List.all_eq_true.1 hrange v hv) hadmits
      exact Json.alternatives?_iff h rfl rfl (by simp)
        ((Json.onePart?_iff fun _ => list.inj).trans (hvs.trans forall_floats_flatMap.symm))
        hreadable
  | range low high =>
      obtain ⟨hlow, hhigh⟩ := Bool.and_eq_true_iff.1 hrange
      have hlow' := Literal.ofJson?_toJson_iff (o := .held) hlow trivial
      have hhigh' := Literal.ofJson?_toJson_iff (o := .held) hhigh trivial
      have hparts : Json.parts? ["low", "high"] (.object (field "low" low.toJson ++
          field "high" high.toJson)) = some [some low.toJson, some high.toJson] :=
        Json.parts?_own rfl rfl (by decide)
      refine Json.alternatives?_iff h (by rw [toJson, List.append_assoc]) rfl (by simp) ?_ hreadable
      simp only [hparts, required?, Option.bind_eq_bind, Option.bind_some, floats,
        List.forall_mem_append, ← hlow', ← hhigh']
      simp [Option.bind_eq_some_iff]
  | null =>
      exact Json.alternatives?_iff h rfl rfl (by simp) (by simp [Json.noParts?, floats]) hreadable
  | daysAgo k =>
      have hk : k < 2 ^ 32 := by simpa [Comparand.inRange] using hrange
      have hnat : Json.nat? 32 .held (Json.nat k) = some k := Json.nat?_nat .held (by decide) hk
      exact Json.alternatives?_iff h rfl rfl (by simp)
        ((Json.onePart?_iff fun _ => daysAgo.inj).trans (iff_of_true hnat (by simp [floats])))
        hreadable
  | column c =>
      have hc : Reference.ofJson? .held c.toJson = some c := c.ofJson?_toJson trivial
      exact Json.alternatives?_iff h rfl rfl (by simp)
        ((Json.onePart?_iff fun _ => column.inj).trans (iff_of_true hc (by simp [floats])))
        hreadable
  | subquery q =>
      have hless : q.toJson.depth < n := Nat.lt_of_lt_of_le
        (Json.depth_lt_of_mem (m := ("query", q.toJson)) (by simp [field])) hdepth
      have hq := hquery q .held hrange trivial hless
      exact Json.alternatives?_iff h rfl rfl (by simp)
        ((Json.onePart?_iff fun _ => subquery.inj).trans hq) hreadable

theorem Condition.ofJson?_toJson_iff {c : Condition} (hrange : c.inRange = true)
    (h : o.Admits c.toJson) (hdepth : c.toJson.depth ≤ n) :
    Condition.ofJson? query? o c.toJson = some c ↔ ∀ x ∈ c.floats, ReadsBack x := by
  obtain ⟨lhs, op, rhs⟩ := c
  obtain ⟨hlhs, hrhs⟩ := Bool.and_eq_true_iff.1 hrange
  obtain ⟨inner, hparts, hrecord⟩ := record?_object _ h
    (names_append (names_append (names_field _ _) (names_field _ _))
      (names_field _ _)) (by decide)
  have hrhs_mem : ("rhs", rhs.toJson) ∈ field "lhs" lhs.toJson ++ field "op" (.text op.keyword) ++
      field "rhs" rhs.toJson := by simp [field]
  have hleft := Operand.ofJson?_toJson_iff hlhs (hparts ("lhs", lhs.toJson) (by simp [field]))
  have hright := Comparand.ofJson?_toJson_iff hquery hrhs (hparts _ hrhs_mem)
    ((Json.depth_lt_of_mem hrhs_mem).le.trans hdepth)
  rw [Condition.ofJson?]
  refine (Eq.congr_left hrecord).trans ?_
  simp only [floats, List.forall_mem_append, ← hleft, ← hright]
  simp [List.lookup_append, required?, Json.choice?_text op.lookup_keyword,
    Option.bind_eq_some_iff]

/-- Conditions that are left out where there are none. -/
theorem Condition.optional?_toJson_iff {cs : List Condition}
    (hrange : Condition.allInRange cs = true)
    (h : ∀ j, itemsPart (Condition.allToJson cs) = some j → o.Admits j ∧ j.depth ≤ n) :
    optional? (Json.list? (Condition.ofJson? query?)) [] o
        (itemsPart (Condition.allToJson cs)) = some cs ↔
      ∀ x ∈ Condition.allFloats cs, ReadsBack x := by
  rw [Condition.allFloats_eq_flatMap, forall_floats_flatMap]
  rw [Condition.allToJson_eq_map] at h ⊢
  cases cs with
  | nil => simp [itemsPart, optional?]
  | cons c cs =>
      obtain ⟨hadmits, hdepth⟩ := h _ rfl
      exact Json.list?_array hadmits fun o c' hc' hc'' =>
        Condition.ofJson?_toJson_iff hquery (Condition.allInRange_iff.1 hrange c' hc') hc''
          ((Json.depth_le_of_mem_items (List.mem_map_of_mem hc')).trans
            (Nat.le_of_succ_le hdepth))

theorem Join.ofJson?_toJson_iff {j : Join} (hrange : Condition.allInRange j.conditions = true)
    (h : o.Admits j.toJson) (hdepth : j.toJson.depth ≤ n) :
    Join.ofJson? query? o j.toJson = some j ↔
      ∀ x ∈ Condition.allFloats j.conditions, ReadsBack x := by
  obtain ⟨kind, left, right, conditions⟩ := j
  obtain ⟨inner, hparts, hrecord⟩ := record?_object _ h
    (names_append (names_append (names_append (names_field _ _)
      (names_field _ _)) (names_field _ _)) (names_fieldOfItems _ _)) (by decide)
  have hleft := left.ofJson?_toJson (hparts ("left", left.toJson) (by simp [field]))
  have hright := right.ofJson?_toJson (hparts ("right", right.toJson) (by simp [field]))
  have hconditions : optional? (Json.list? (Condition.ofJson? query?)) [] inner
      (itemsPart (Condition.allToJson conditions)) = some conditions ↔ _ :=
    Condition.optional?_toJson_iff hquery hrange fun k hk => by
      have hmem := List.mem_append_right (field "kind" (.text kind.keyword) ++
        field "left" left.toJson ++ field "right" right.toJson)
        (mem_fieldOfItems "conditions" hk)
      exact ⟨hparts _ hmem, (Json.depth_lt_of_mem hmem).le.trans hdepth⟩
  have hkind : optional? (Json.choice? JoinKind.keywords) .inner inner
      (some (.text kind.keyword)) = some kind := Json.choice?_text kind.lookup_keyword inner
  rw [Join.ofJson?, ← hconditions]
  refine (Eq.congr_left hrecord).trans ?_
  simp [List.lookup_append, required?, hkind, hleft, hright, Option.bind_eq_some_iff]

/-- Joins that are left out where there are none. -/
theorem Join.optional?_toJson_iff {js : List Join} (hrange : Join.allInRange js = true)
    (h : ∀ k, itemsPart (Join.allToJson js) = some k → o.Admits k ∧ k.depth ≤ n) :
    optional? (Json.list? (Join.ofJson? query?)) [] o (itemsPart (Join.allToJson js)) = some js ↔
      ∀ x ∈ Join.allFloats js, ReadsBack x := by
  rw [Join.allFloats_eq_flatMap, forall_floats_flatMap]
  rw [Join.allToJson_eq_map] at h ⊢
  cases js with
  | nil => simp [itemsPart, optional?]
  | cons j js =>
      obtain ⟨hadmits, hdepth⟩ := h _ rfl
      exact Json.list?_array hadmits fun o j' hj' hj'' =>
        Join.ofJson?_toJson_iff hquery (Join.allInRange_iff.1 hrange j' hj') hj''
          ((Json.depth_le_of_mem_items (List.mem_map_of_mem hj')).trans
            (Nat.le_of_succ_le hdepth))

end Nested

theorem Json.optional?_items {α : Type} {f : Decoder α} {g : α → Json} {o : Origin} {xs : List α}
    (hf : ∀ x o, o.Admits (g x) → f o (g x) = some x)
    (h : ∀ j, itemsPart (xs.map g) = some j → o.Admits j) :
    optional? (Json.list? f) [] o (itemsPart (xs.map g)) = some xs := by
  cases xs with
  | nil => rfl
  | cons x xs => exact Json.list?_eq_some hf (h _ rfl)

/-- One level of queries more. -/
theorem Query.TakenBack.succ {n : Nat} (hn : Query.TakenBack n (Query.ofJsonTo? n)) :
    Query.TakenBack (n + 1) (Query.ofJsonTo? (n + 1)) := by
  rintro ⟨source, items, joins, filters, groupBy, having, orderBy, limit, distinct⟩ o hrange h
    hdepth
  simp only [Query.inRange, Bool.and_eq_true] at hrange
  obtain ⟨⟨⟨hjoinsRange, hfiltersRange⟩, hhavingRange⟩, hlimitRange⟩ := hrange
  obtain ⟨inner, hparts, hrecord⟩ := record?_object _ h
    (names_append (names_append (names_append (names_append
      (names_append (names_append (names_append (names_append
        (names_field _ _) (names_field _ _)) (names_fieldOfItems _ _))
        (names_fieldOfItems _ _)) (names_fieldIfAny _ _ _)) (names_fieldOfItems _ _))
        (names_fieldIfAny _ _ _)) (names_fieldIfSome _ _ _))
        (names_fieldIfTrue _ _)) (by decide)
  -- there is room for each part, and it is less deep than the query
  have hpart : ∀ name j, Json.get? name (Query.toJson ⟨source, items, joins, filters, groupBy,
      having, orderBy, limit, distinct⟩) = some j → inner.Admits j ∧ j.depth ≤ n := by
    intro name j hj
    have hmem := Keyed.mem_of_lookup hj
    exact ⟨hparts _ hmem, Nat.le_of_lt_succ (Nat.lt_of_lt_of_le (Json.depth_lt_of_mem hmem)
      (Nat.le_of_lt hdepth))⟩
  simp only [Query.toJson, Json.get?, List.lookup_append] at hpart
  have hitems : Json.list? Item.ofJson? inner (Json.list Item.toJson items) = some items :=
    Json.list?_eq_some (fun i o hi => i.ofJson?_toJson hi)
      (hpart "columns" _ (by simp)).1
  have hjoins := Join.optional?_toJson_iff (o := inner) hn hjoinsRange
    fun j hj => hpart "joins" j (by simpa using hj)
  have hfilters := Condition.optional?_toJson_iff (o := inner) hn hfiltersRange
    fun j hj => hpart "where" j (by simpa using hj)
  have hgroup : optional? (Json.list? Reference.ofJson?) [] inner
      (itemsPart (groupBy.map Reference.toJson)) = some groupBy :=
    Json.optional?_items (fun r o hr => r.ofJson?_toJson hr)
      fun j hj => (hpart "group_by" j (by simpa using hj)).1
  have hhaving := Condition.optional?_toJson_iff (o := inner) hn hhavingRange
    fun j hj => hpart "having" j (by simpa using hj)
  have horder : optional? (Json.list? SortKey.ofJson?) [] inner
      (itemsPart (orderBy.map SortKey.toJson)) = some orderBy :=
    Json.optional?_items (fun k o hk => k.ofJson?_toJson hk)
      fun j hj => (hpart "order_by" j (by simpa using hj)).1
  have hlimit : optional? (Json.nullable? (Json.nat? 64)) none inner (limit.map Json.nat) =
      some limit := by
    refine Json.optional?_nullable (fun _ => nofun) fun k hk => ?_
    have hbound : k < 2 ^ 64 := by
      rw [hk] at hlimitRange
      simpa using hlimitRange
    exact Json.nat?_nat inner le_rfl hbound
  simp only [Query.floats, List.forall_mem_append, ← hjoins, ← hfilters, ← hhaving]
  refine (Eq.congr_left hrecord).trans ?_
  simp [List.lookup_append, required?, Option.bind_eq_some_iff, Json.string?, hitems, hgroup,
    horder, hlimit, Json.optional?_flag, and_assoc]

theorem Query.takenBack (n : Nat) : Query.TakenBack n (Query.ofJsonTo? n) := by
  induction n with
  | zero => exact fun q o _ _ hdepth => absurd hdepth (Nat.not_lt_zero _)
  | succ n ih => exact ih.succ

theorem Query.ofText?_toText (q : Query) : Query.ofText? q.toText =
    Query.ofJsonTo? (q.toJson.depth + 1) (.direct Json.nestingLimit) q.toJson := by
  rw [Query.ofText?, Query.parse?_toText]
  rfl

/-- A query whose whole numbers fit their types and whose document is not nested too deep comes
back from its text just if each of its floats does. -/
theorem Query.ofText?_toText_iff (q : Query) (hrange : q.inRange = true)
    (hdepth : q.toJson.depth ≤ Json.nestingLimit) :
    Query.ofText? q.toText = some q ↔ ∀ x ∈ q.floats, ReadsBack x := by
  rw [Query.ofText?_toText]
  exact Query.takenBack (q.toJson.depth + 1) q (.direct Json.nestingLimit) hrange hdepth
    (Nat.lt_succ_self _)

/-- Orders above a price among those of customers of a discount, with a count and its label, a
group, an order and a limit. -/
def pricedOrders (discount : Float) : Query where
  source := "orders"
  items := [.column ⟨"orders", "customer_id", none⟩,
    .aggregate (.countRows "orders" (some "n"))]
  filters := [
    ⟨.column ⟨"orders", "price", none⟩, .gtEq, .literal (.float 2.5)⟩,
    ⟨.column ⟨"orders", "customer_id", none⟩, .isIn, .subquery {
      source := "customers"
      items := [.column ⟨"customers", "id", none⟩]
      filters := [⟨.column ⟨"customers", "discount", none⟩, .lt, .literal (.float discount)⟩] }⟩]
  groupBy := [⟨"orders", "customer_id", none⟩]
  orderBy := [⟨.column ⟨"orders", "customer_id", none⟩, some .desc⟩]
  limit := some 10

theorem floats_pricedOrders (discount : Float) : (pricedOrders discount).floats = [2.5, discount] :=
  rfl

theorem Query.ofText?_toText_iff_pricedOrders :
    (pricedOrders 0.75).inRange = true ∧ (pricedOrders 0.75).toJson.depth ≤ Json.nestingLimit ∧
      Query.ofText? (pricedOrders 0.75).toText = some (pricedOrders 0.75) := by
  have hrange : (pricedOrders 0.75).inRange = true := by decide +kernel
  have hdepth : (pricedOrders 0.75).toJson.depth ≤ Json.nestingLimit := by decide +kernel
  have hread : ∀ x ∈ (pricedOrders 0.75).floats, ReadsBack x := by
    rw [floats_pricedOrders]
    decide +kernel
  exact ⟨hrange, hdepth, (Query.ofText?_toText_iff _ hrange hdepth).2 hread⟩

/-- A float just below one comes back as one: its digits are taken for a float, which rounds them
up, and then divided by a power of ten. -/
theorem Query.ofText?_toText_nearlyOne :
    (pricedOrders 0.9999999999999999).isFinite = true ∧
      (pricedOrders 0.9999999999999999).inRange = true ∧
      (pricedOrders 0.9999999999999999).toJson.depth ≤ Json.nestingLimit ∧
      Json.float? .held (.float 0.9999999999999999) = some 1 ∧
      Query.ofText? (pricedOrders 0.9999999999999999).toText ≠
        some (pricedOrders 0.9999999999999999) := by
  have hfinite : (pricedOrders 0.9999999999999999).isFinite = true := by decide +kernel
  have hrange : (pricedOrders 0.9999999999999999).inRange = true := by decide +kernel
  have hdepth : (pricedOrders 0.9999999999999999).toJson.depth ≤ Json.nestingLimit := by
    decide +kernel
  have hone : Json.float? .held (.float 0.9999999999999999) = some 1 := by decide +kernel
  have hdiffers : ¬ReadsBack 0.9999999999999999 := by decide +kernel
  refine ⟨hfinite, hrange, hdepth, hone, ?_⟩
  have hfloats := floats_pricedOrders 0.9999999999999999
  generalize pricedOrders 0.9999999999999999 = q at hrange hdepth hfloats ⊢
  intro htext
  rw [Query.ofText?_toText] at htext
  have hread := (Query.takenBack _ q (.direct Json.nestingLimit) hrange hdepth
    (Nat.lt_succ_self _)).1 htext
  rw [hfloats] at hread
  exact hdiffers (hread _ (by simp))

end AskSql
