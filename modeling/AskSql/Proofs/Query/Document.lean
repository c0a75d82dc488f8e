import AskSql.Proofs.Json.Reading
import AskSql.Proofs.Query.Literals
import AskSql.Query.Document

/-!
# Queries and their documents

Floats that are no number or infinite all stand as null in a document, and all else of a query is
told by it: queries with the same document are the same but for such floats
(`Query.shown_eq_of_toJson`), and a query without them is the only one with its document
(`Query.toJson_inj`).  The text of the document can be told from what follows it
(`Query.toJson_eq_of_toText_append`, `Query.toText_append_inj`).
-/

namespace AskSql

open Json (field fieldIfSome fieldIfAny fieldIfTrue)

/-! ### Parts of documents -/

section Parts

variable {α : Type} (name key : String)

@[simp] theorem lookup_field (j : Json) :
    (field name j).lookup key = if key = name then some j else none := by
  by_cases h : key = name
  · simp [field, h]
  · have hne : (key == name) = false := by simpa using h
    simp [field, List.lookup_cons, hne, h]

@[simp] theorem lookup_fieldIfSome (f : α → Json) (o : Option α) :
    (fieldIfSome name f o).lookup key = if key = name then o.map f else none := by
  cases o with
  | none => simp [fieldIfSome]
  | some a => exact lookup_field name key (f a)

@[simp] theorem lookup_fieldIfTrue (flag : Bool) :
    (fieldIfTrue name flag).lookup key =
      if key = name then (if flag then some (.bool true) else none) else none := by
  cases flag with
  | false => simp [fieldIfTrue]
  | true => exact lookup_field name key (.bool true)

/-- Items that are left out where there are none. -/
def itemsPart : List Json → Option Json
  | [] => none
  | js => some (.array js)

@[simp] theorem lookup_fieldOfItems (js : List Json) :
    (fieldOfItems name js).lookup key = if key = name then itemsPart js else none := by
  cases js with
  | nil => simp [fieldOfItems, itemsPart]
  | cons j js => exact lookup_field name key (.array (j :: js))

@[simp] theorem lookup_fieldIfAny (f : α → Json) (xs : List α) :
    (fieldIfAny name f xs).lookup key = if key = name then itemsPart (xs.map f) else none := by
  cases xs with
  | nil => simp [fieldIfAny, itemsPart]
  | cons x xs => exact lookup_field name key (.array ((x :: xs).map f))

@[simp] theorem itemsPart_inj {js ks : List Json} : itemsPart js = itemsPart ks ↔ js = ks := by
  cases js with
  | nil =>
      cases ks with
      | nil => simp
      | cons k ks => simp [itemsPart]
  | cons j js =>
      cases ks with
      | nil => simp [itemsPart]
      | cons k ks => simp [itemsPart]

end Parts

/-- A flag that is left out where it is not set. -/
theorem flag_eq_of_part {a b : Bool}
    (h : (if a then some (Json.bool true) else none) = if b then some (Json.bool true) else none) :
    a = b := by
  cases a with
  | false =>
      cases b with
      | false => rfl
      | true => cases h
  | true =>
      cases b with
      | false => cases h
      | true => rfl

theorem map_eq_of_map_toJson {α β : Type} {f : α → Json} {g : α → β} {xs ys : List α}
    (hg : ∀ x y, f x = f y → g x = g y) (h : xs.map f = ys.map f) : xs.map g = ys.map g := by
  induction xs generalizing ys with
  | nil => rw [List.map_eq_nil_iff.1 h.symm]
  | cons x xs ih =>
      cases ys with
      | nil => cases h
      | cons y ys =>
          obtain ⟨hhead, htail⟩ := List.cons.inj h
          rw [List.map_cons, List.map_cons, hg x y hhead, ih htail]

theorem eq_of_map_toJson {α : Type} {f : α → Json} {xs ys : List α}
    (hf : ∀ x y, f x = f y → x = y) (h : xs.map f = ys.map f) : xs = ys := by
  simpa using map_eq_of_map_toJson hf h

theorem Json.text_injective : Function.Injective Json.text :=
  fun _ _ h => Json.text.inj h

/-! ### Expressions -/

namespace Reference

theorem members_inj {r s : Reference} (h : r.members = s.members) : r = s := by
  have hpart : ∀ key, r.members.lookup key = s.members.lookup key := fun key => by rw [h]
  have htable : r.table = s.table := by simpa [members, List.lookup_append] using hpart "table"
  have hcolumn : r.column = s.column := by simpa [members, List.lookup_append] using hpart "column"
  have hlabel : r.label.map Json.text = s.label.map Json.text := by
    simpa [members, List.lookup_append] using hpart "alias"
  obtain ⟨table, column, label⟩ := r
  obtain rfl := htable
  obtain rfl := hcolumn
  obtain rfl := Option.map_injective Json.text_injective hlabel
  rfl

theorem toJson_inj {r s : Reference} (h : r.toJson = s.toJson) : r = s :=
  members_inj (Json.object.inj h)

end Reference

/-- What is found under its own name has a name of its own. -/
theorem eq_of_lookup_keyword {α : Type} {names : List (String × α)} {keyword : α → String}
    (hnames : ∀ a, names.lookup (keyword a) = some a) {a b : α} (h : keyword a = keyword b) :
    a = b := by
  have hb := hnames b
  rw [← h, hnames a] at hb
  exact Option.some.inj hb

theorem AggregateFunction.lookup_keyword (f : AggregateFunction) :
    keywords.lookup f.keyword = some f := by
  cases f <;> rfl

theorem Arithmetic.lookup_keyword (a : Arithmetic) : keywords.lookup a.keyword = some a := by
  cases a <;> rfl

theorem Comparison.lookup_keyword (c : Comparison) : keywords.lookup c.keyword = some c := by
  cases c <;> rfl

theorem JoinKind.lookup_keyword (k : JoinKind) : keywords.lookup k.keyword = some k := by
  cases k <;> rfl

theorem Direction.lookup_keyword (d : Direction) : keywords.lookup d.keyword = some d := by
  cases d <;> rfl

theorem Argument.toJson_inj {a b : Argument} (h : a.toJson = b.toJson) : a = b := by
  -- the tags tell the kinds apart, and the parts come back one by one
  cases a with
  | column c =>
      cases b with
      | column d =>
          have hc : c.toJson = d.toJson := by simpa [toJson, field] using h
          rw [Reference.toJson_inj hc]
      | _ => simp [toJson, field] at h
  | arithmetic left op right =>
      cases b with
      | arithmetic left' op' right' =>
          have hparts : left.toJson = left'.toJson ∧ op.keyword = op'.keyword ∧
              right.toJson = right'.toJson := by
            simpa [toJson, field] using h
          obtain ⟨hleft, hop, hright⟩ := hparts
          rw [Reference.toJson_inj hleft, eq_of_lookup_keyword Arithmetic.lookup_keyword hop,
            Reference.toJson_inj hright]
      | _ => simp [toJson, field] at h
  | raw sql =>
      cases b with
      | raw sql' =>
          have hsql : sql = sql' := by simpa [toJson, field] using h
          rw [hsql]
      | _ => simp [toJson, field] at h

theorem Aggregate.members_inj {a b : Aggregate} (h : a.members = b.members) : a = b := by
  have hpart : ∀ key, a.members.lookup key = b.members.lookup key := fun key => by rw [h]
  have hfunction : a.function.keyword = b.function.keyword := by
    simpa [members, List.lookup_append] using hpart "func"
  have hargument : a.argument.toJson = b.argument.toJson := by
    simpa [members, List.lookup_append] using hpart "expr"
  have hlabel : a.label.map Json.text = b.label.map Json.text := by
    simpa [members, List.lookup_append] using hpart "alias"
  have hdistinct : a.distinct = b.distinct := by
    apply flag_eq_of_part
    simpa [members, List.lookup_append] using hpart "distinct"
  obtain ⟨function, argument, label, distinct⟩ := a
  obtain rfl := eq_of_lookup_keyword AggregateFunction.lookup_keyword hfunction
  obtain rfl := Argument.toJson_inj hargument
  obtain rfl := Option.map_injective Json.text_injective hlabel
  obtain rfl := hdistinct
  rfl

theorem Item.toJson_inj {i k : Item} (h : i.toJson = k.toJson) : i = k := by
  cases i with
  | column c =>
      cases k with
      | column d =>
          have hc : c.members = d.members := by simpa [toJson, field] using h
          rw [Reference.members_inj hc]
      | aggregate b => simp [toJson, field] at h
  | aggregate a =>
      cases k with
      | column d => simp [toJson, field] at h
      | aggregate b =>
          have ha : a.members = b.members := by simpa [toJson, field] using h
          rw [Aggregate.members_inj ha]

theorem SortKey.toJson_inj {k l : SortKey} (h : k.toJson = l.toJson) : k = l := by
  have hdirections : Function.Injective fun d : Direction => Json.text d.keyword := fun _ _ hde =>
    eq_of_lookup_keyword Direction.lookup_keyword (Json.text.inj hde)
  have hpart : ∀ key, (k.toJson.get? key) = l.toJson.get? key := fun key => by rw [h]
  have hitem : k.item.toJson = l.item.toJson := by
    simpa [toJson, Json.get?, List.lookup_append] using hpart "expr"
  have hdirection : k.direction.map (fun d => Json.text d.keyword) =
      l.direction.map fun d => Json.text d.keyword := by
    simpa [toJson, Json.get?, List.lookup_append] using hpart "direction"
  obtain ⟨item, direction⟩ := k
  obtain rfl := Item.toJson_inj hitem
  obtain rfl := Option.map_injective hdirections hdirection
  rfl

/-! ### Literals -/

/-- No float that is no number or infinite. -/
def Literal.isFinite : Literal → Bool
  | float x => x.isFinite
  | _ => true

/-- The literal is finite, if there is one. -/
def Operand.isFinite : Operand → Bool
  | literal v => v.isFinite
  | _ => true

theorem Json.int_inj {n k : Int} (h : Json.int n = Json.int k) : n = k :=
  Numeral.ofInt_inj (Json.number.inj h)

theorem Json.float_inj {x y : Float} (hx : x.isFinite = true) (h : Json.float x = Json.float y) :
    x = y := by
  rw [Json.float, Json.float, if_pos hx] at h
  split at h
  · exact Numeral.ofFloat_inj (Json.number.inj h)
  · cases h

theorem Literal.toJson_inj {v w : Literal} (hv : v.isFinite = true) (h : v.toJson = w.toJson) :
    v = w := by
  cases v with
  | integer n =>
      cases w with
      | integer k =>
          have hn : Json.int n = Json.int k := by simpa [toJson, toJson.typed, field] using h
          rw [Json.int_inj hn]
      | _ => simp [toJson, toJson.typed, field] at h
  | float x =>
      cases w with
      | float y =>
          have hx : Json.float x = Json.float y := by simpa [toJson, toJson.typed, field] using h
          rw [Json.float_inj hv hx]
      | _ => simp [toJson, toJson.typed, field] at h
  | text s =>
      cases w with
      | text t =>
          have hs : s = t := by simpa [toJson, toJson.typed, field] using h
          rw [hs]
      | _ => simp [toJson, toJson.typed, field] at h
  | boolean b =>
      cases w with
      | boolean c =>
          have hb : b = c := by simpa [toJson, toJson.typed, field] using h
          rw [hb]
      | _ => simp [toJson, toJson.typed, field] at h
  | date s =>
      cases w with
      | date t =>
          have hs : s = t := by simpa [toJson, toJson.typed, field] using h
          rw [hs]
      | _ => simp [toJson, toJson.typed, field] at h

theorem Operand.toJson_inj {a b : Operand} (ha : a.isFinite = true) (h : a.toJson = b.toJson) :
    a = b := by
  cases a with
  | column c =>
      cases b with
      | column d =>
          have hc : c.members = d.members := by simpa [toJson, field] using h
          rw [Reference.members_inj hc]
      | _ => simp [toJson, field] at h
  | aggregate a =>
      cases b with
      | aggregate b =>
          have hab : a.members = b.members := by simpa [toJson, field] using h
          rw [Aggregate.members_inj hab]
      | _ => simp [toJson, field] at h
  | monthOf c =>
      cases b with
      | monthOf d =>
          have hc : c.toJson = d.toJson := by simpa [toJson, field] using h
          rw [Reference.toJson_inj hc]
      | _ => simp [toJson, field] at h
  | literal v =>
      cases b with
      | literal w =>
          have hv : v.toJson = w.toJson := by simpa [toJson, field] using h
          rw [Literal.toJson_inj ha hv]
      | _ => simp [toJson, field] at h

/-- The literal as its document shows it: floats that are no number or infinite are all the same. -/
def Literal.shown : Literal → Literal
  | float x => float (if x.isFinite then x else 0 / 0)
  | v => v

theorem Literal.shown_eq_self {v : Literal} (h : v.isFinite = true) : v.shown = v := by
  cases v with
  | float x =>
      have hx : x.isFinite = true := h
      rw [shown, if_pos hx]
  | _ => rfl

theorem Literal.shown_of_not_isFinite {v : Literal} (h : v.isFinite = false) :
    v.shown = float (0 / 0) := by
  cases v with
  | float x =>
      have hx : ¬ x.isFinite = true := by
        rw [Bool.not_eq_true]
        exact h
      rw [shown, if_neg hx]
  | _ => cases h

@[simp] theorem Literal.isFinite_shown (v : Literal) : v.shown.isFinite = v.isFinite := by
  have hnan : (0 / 0 : Float).isFinite = false := by decide +kernel
  cases hv : v.isFinite with
  | true => rw [shown_eq_self hv, hv]
  | false => rw [shown_of_not_isFinite hv, isFinite, hnan]

theorem Literal.shown_eq_of_toJson {v w : Literal} (h : v.toJson = w.toJson) :
    v.shown = w.shown := by
  cases hv : v.isFinite with
  | true => rw [toJson_inj hv h]
  | false =>
      cases hw : w.isFinite with
      | true => rw [toJson_inj hw h.symm]
      | false => rw [shown_of_not_isFinite hv, shown_of_not_isFinite hw]

theorem Operand.shown_eq_of_toJson {a b : Operand} (h : a.toJson = b.toJson) :
    a.mapLiterals Literal.shown = b.mapLiterals Literal.shown := by
  cases hfinite : a.isFinite with
  | true => rw [toJson_inj hfinite h]
  | false =>
      cases a with
      | literal v =>
          cases b with
          | literal w =>
              have hv : v.toJson = w.toJson := by simpa [toJson, field] using h
              rw [mapLiterals, mapLiterals, Literal.shown_eq_of_toJson hv]
          | _ => simp [toJson, field] at h
      | _ => cases hfinite

/-! ### Conditions, joins and queries -/

mutual

/-- No literal of a right side is a float that is no number or infinite. -/
def Comparand.isFinite : Comparand → Bool
  | .literal v => v.isFinite
  | .list vs => vs.all Literal.isFinite
  | .range low high => low.isFinite && high.isFinite
  | .subquery q => Query.isFinite q
  | _ => true

/-- No literal of some conditions is. -/
def Condition.allFinite : List Condition → Bool
  | [] => true
  | ⟨lhs, _, rhs⟩ :: cs => lhs.isFinite && Comparand.isFinite rhs && Condition.allFinite cs

/-- No literal behind some joins is. -/
def Join.allFinite : List Join → Bool
  | [] => true
  | ⟨_, _, _, conditions⟩ :: js => Condition.allFinite conditions && Join.allFinite js

/-- No literal of a query is. -/
def Query.isFinite : Query → Bool
  | ⟨_, _, joins, filters, _, having, _, _, _⟩ =>
    Join.allFinite joins && Condition.allFinite filters && Condition.allFinite having

end

mutual

theorem Comparand.shown_eq_of_toJson : ∀ c d : Comparand, c.toJson = d.toJson →
    c.mapLiterals Literal.shown = d.mapLiterals Literal.shown
  | .literal v, d, h => by
      cases d with
      | literal w =>
          have hv : v.toJson = w.toJson := by simpa [Comparand.toJson, field] using h
          rw [Comparand.mapLiterals, Comparand.mapLiterals, Literal.shown_eq_of_toJson hv]
      | _ => simp [Comparand.toJson, field] at h
  | .list vs, d, h => by
      cases d with
      | list ws =>
          have hmap : vs.map Literal.toJson = ws.map Literal.toJson := by
            simpa [Comparand.toJson, field, Json.list] using h
          rw [Comparand.mapLiterals, Comparand.mapLiterals,
            map_eq_of_map_toJson (fun _ _ => Literal.shown_eq_of_toJson) hmap]
      | _ => simp [Comparand.toJson, field] at h
  | .range low high, d, h => by
      cases d with
      | range low' high' =>
          have hparts : low.toJson = low'.toJson ∧ high.toJson = high'.toJson := by
            simpa [Comparand.toJson, field] using h
          rw [Comparand.mapLiterals, Comparand.mapLiterals, Literal.shown_eq_of_toJson hparts.1,
            Literal.shown_eq_of_toJson hparts.2]
      | _ => simp [Comparand.toJson, field] at h
  | .null, d, h => by
      cases d with
      | null => rfl
      | _ => simp [Comparand.toJson, field] at h
  | .daysAgo n, d, h => by
      cases d with
      | daysAgo k =>
          have hn : Json.nat n = Json.nat k := by simpa [Comparand.toJson, field] using h
          rw [Int.ofNat.inj (Json.int_inj hn)]
      | _ => simp [Comparand.toJson, field] at h
  | .column r, d, h => by
      cases d with
      | column s =>
          have hr : r.toJson = s.toJson := by simpa [Comparand.toJson, field] using h
          rw [Reference.toJson_inj hr]
      | _ => simp [Comparand.toJson, field] at h
  | .subquery q, d, h => by
      cases d with
      | subquery p =>
          have hq : q.toJson = p.toJson := by simpa [Comparand.toJson, field] using h
          rw [Comparand.mapLiterals, Comparand.mapLiterals, Query.shown_eq_of_toJson q p hq]
      | _ => simp [Comparand.toJson, field] at h

theorem Condition.allShown_eq_of_toJson : ∀ cs ds : List Condition,
    Condition.allToJson cs = Condition.allToJson ds →
      Condition.mapAllLiterals Literal.shown cs = Condition.mapAllLiterals Literal.shown ds
  | [], ds, h => by
      cases ds with
      | nil => rfl
      | cons d ds => cases h
  | ⟨lhs, op, rhs⟩ :: cs, ds, h => by
      cases ds with
      | nil => cases h
      | cons d ds =>
          obtain ⟨lhs', op', rhs'⟩ := d
          obtain ⟨hhead, htail⟩ := List.cons.inj h
          have hparts : lhs.toJson = lhs'.toJson ∧ op.keyword = op'.keyword ∧
              rhs.toJson = rhs'.toJson := by
            simpa [Condition.toJson, field] using hhead
          rw [Condition.mapAllLiterals, Condition.mapAllLiterals,
            Operand.shown_eq_of_toJson hparts.1,
            eq_of_lookup_keyword Comparison.lookup_keyword hparts.2.1,
            Comparand.shown_eq_of_toJson rhs rhs' hparts.2.2,
            Condition.allShown_eq_of_toJson cs ds htail]

theorem Join.allShown_eq_of_toJson : ∀ js ks : List Join, Join.allToJson js = Join.allToJson ks →
    Join.mapAllLiterals Literal.shown js = Join.mapAllLiterals Literal.shown ks
  | [], ks, h => by
      cases ks with
      | nil => rfl
      | cons k ks => cases h
  | ⟨kind, left, right, conditions⟩ :: js, ks, h => by
      cases ks with
      | nil => cases h
      | cons k ks =>
          obtain ⟨kind', left', right', conditions'⟩ := k
          obtain ⟨hhead, htail⟩ := List.cons.inj h
          -- fields that are empty are left out, so the others are looked up by name
          have hpart : ∀ key, (Join.toJson ⟨kind, left, right, conditions⟩).get? key =
              (Join.toJson ⟨kind', left', right', conditions'⟩).get? key := fun key => by rw [hhead]
          have hkind : kind.keyword = kind'.keyword := by
            simpa [Join.toJson, Json.get?, List.lookup_append] using hpart "kind"
          have hleft : left.toJson = left'.toJson := by
            simpa [Join.toJson, Json.get?, List.lookup_append] using hpart "left"
          have hright : right.toJson = right'.toJson := by
            simpa [Join.toJson, Json.get?, List.lookup_append] using hpart "right"
          have hon : Condition.allToJson conditions = Condition.allToJson conditions' := by
            simpa [Join.toJson, Json.get?, List.lookup_append] using hpart "conditions"
          rw [Join.mapAllLiterals, Join.mapAllLiterals,
            eq_of_lookup_keyword JoinKind.lookup_keyword hkind, Reference.toJson_inj hleft,
            Reference.toJson_inj hright, Condition.allShown_eq_of_toJson _ _ hon,
            Join.allShown_eq_of_toJson js ks htail]

/-- Queries with the same document are the same but for floats that it does not show. -/
theorem Query.shown_eq_of_toJson : ∀ q p : Query, q.toJson = p.toJson →
    q.mapLiterals Literal.shown = p.mapLiterals Literal.shown
  | ⟨source, items, joins, filters, groupBy, having, orderBy, limit, distinct⟩, p, h => by
      obtain ⟨source', items', joins', filters', groupBy', having', orderBy', limit',
        distinct'⟩ := p
      -- each part is looked up under its own name; one that is left out stands for none or empty
      have hpart : ∀ key, Json.get? key (Query.toJson ⟨source, items, joins, filters, groupBy,
          having, orderBy, limit, distinct⟩) = Json.get? key (Query.toJson ⟨source', items', joins',
          filters', groupBy', having', orderBy', limit', distinct'⟩) := fun key => by rw [h]
      simp only [Query.toJson, Json.get?, List.lookup_append] at hpart
      have hsource : source = source' := by simpa using hpart "from"
      have hitems : items.map Item.toJson = items'.map Item.toJson := by
        simpa [Json.list] using hpart "columns"
      have hjoins : Join.allToJson joins = Join.allToJson joins' := by simpa using hpart "joins"
      have hfilters : Condition.allToJson filters = Condition.allToJson filters' := by
        simpa using hpart "where"
      have hgroup : groupBy.map Reference.toJson = groupBy'.map Reference.toJson := by
        simpa using hpart "group_by"
      have hhaving : Condition.allToJson having = Condition.allToJson having' := by
        simpa using hpart "having"
      have horder : orderBy.map SortKey.toJson = orderBy'.map SortKey.toJson := by
        simpa using hpart "order_by"
      have hlimit : limit.map Json.nat = limit'.map Json.nat := by simpa using hpart "limit"
      have hdistinct : distinct = distinct' := by
        apply flag_eq_of_part
        simpa using hpart "distinct"
      have hnat : Function.Injective Json.nat := fun _ _ hn => Int.ofNat.inj (Json.int_inj hn)
      rw [Query.mapLiterals, Query.mapLiterals, hsource,
        eq_of_map_toJson (fun _ _ => Item.toJson_inj) hitems,
        Join.allShown_eq_of_toJson _ _ hjoins, Condition.allShown_eq_of_toJson _ _ hfilters,
        eq_of_map_toJson (fun _ _ => Reference.toJson_inj) hgroup,
        Condition.allShown_eq_of_toJson _ _ hhaving,
        eq_of_map_toJson (fun _ _ => SortKey.toJson_inj) horder,
        Option.map_injective hnat hlimit, hdistinct]

end

/-! ### Queries whose floats are finite -/

theorem Operand.shown_eq_self {a : Operand} (h : a.isFinite = true) :
    a.mapLiterals Literal.shown = a := by
  cases a with
  | literal v => rw [mapLiterals, Literal.shown_eq_self h]
  | _ => rfl

@[simp] theorem Operand.isFinite_shown (a : Operand) :
    (a.mapLiterals Literal.shown).isFinite = a.isFinite := by
  cases a with
  | literal v => exact v.isFinite_shown
  | _ => rfl

mutual

theorem Comparand.shown_eq_self : ∀ c : Comparand, c.isFinite = true →
    c.mapLiterals Literal.shown = c
  | .literal v, h => by rw [Comparand.mapLiterals, Literal.shown_eq_self h]
  | .list vs, h => by
      rw [Comparand.isFinite, List.all_eq_true] at h
      rw [Comparand.mapLiterals, List.map_congr_left fun v hv => Literal.shown_eq_self (h v hv),
        List.map_id']
  | .range low high, h => by
      obtain ⟨hlow, hhigh⟩ := Bool.and_eq_true_iff.1 h
      rw [Comparand.mapLiterals, Literal.shown_eq_self hlow, Literal.shown_eq_self hhigh]
  | .subquery q, h => by rw [Comparand.mapLiterals, Query.shown_eq_self q h]
  | .null, _ | .daysAgo _, _ | .column _, _ => rfl

theorem Condition.allShown_eq_self : ∀ cs : List Condition, Condition.allFinite cs = true →
    Condition.mapAllLiterals Literal.shown cs = cs
  | [], _ => rfl
  | ⟨lhs, op, rhs⟩ :: cs, h => by
      simp only [Condition.allFinite, Bool.and_eq_true] at h
      rw [Condition.mapAllLiterals, Operand.shown_eq_self h.1.1, Comparand.shown_eq_self rhs h.1.2,
        Condition.allShown_eq_self cs h.2]

theorem Join.allShown_eq_self : ∀ js : List Join, Join.allFinite js = true →
    Join.mapAllLiterals Literal.shown js = js
  | [], _ => rfl
  | ⟨kind, left, right, conditions⟩ :: js, h => by
      obtain ⟨hconditions, hjs⟩ := Bool.and_eq_true_iff.1 h
      rw [Join.mapAllLiterals, Condition.allShown_eq_self conditions hconditions,
        Join.allShown_eq_self js hjs]

theorem Query.shown_eq_self : ∀ q : Query, q.isFinite = true → q.mapLiterals Literal.shown = q
  | ⟨source, items, joins, filters, groupBy, having, orderBy, limit, distinct⟩, h => by
      simp only [Query.isFinite, Bool.and_eq_true] at h
      rw [Query.mapLiterals, Join.allShown_eq_self joins h.1.1,
        Condition.allShown_eq_self filters h.1.2, Condition.allShown_eq_self having h.2]

end

mutual

theorem Comparand.isFinite_shown : ∀ c : Comparand,
    (c.mapLiterals Literal.shown).isFinite = c.isFinite
  | .literal v => v.isFinite_shown
  | .list vs => by simp [Comparand.mapLiterals, Comparand.isFinite, Function.comp_def]
  | .range low high => by simp [Comparand.mapLiterals, Comparand.isFinite]
  | .subquery q => Query.isFinite_shown q
  | .null | .daysAgo _ | .column _ => rfl

theorem Condition.allFinite_shown : ∀ cs : List Condition,
    Condition.allFinite (Condition.mapAllLiterals Literal.shown cs) = Condition.allFinite cs
  | [] => rfl
  | ⟨lhs, op, rhs⟩ :: cs => by
      rw [Condition.mapAllLiterals, Condition.allFinite, Condition.allFinite,
        Operand.isFinite_shown, Comparand.isFinite_shown rhs, Condition.allFinite_shown cs]

theorem Join.allFinite_shown : ∀ js : List Join,
    Join.allFinite (Join.mapAllLiterals Literal.shown js) = Join.allFinite js
  | [] => rfl
  | ⟨kind, left, right, conditions⟩ :: js => by
      rw [Join.mapAllLiterals, Join.allFinite, Join.allFinite, Condition.allFinite_shown conditions,
        Join.allFinite_shown js]

theorem Query.isFinite_shown : ∀ q : Query, (q.mapLiterals Literal.shown).isFinite = q.isFinite
  | ⟨source, items, joins, filters, groupBy, having, orderBy, limit, distinct⟩ => by
      rw [Query.mapLiterals, Query.isFinite, Query.isFinite, Join.allFinite_shown joins,
        Condition.allFinite_shown filters, Condition.allFinite_shown having]

end

/-- A query whose floats are finite is the only one with its document. -/
theorem Query.toJson_inj (q p : Query) (hq : q.isFinite = true) (h : q.toJson = p.toJson) :
    q = p := by
  have hshown := Query.shown_eq_of_toJson q p h
  have hp : p.isFinite = true := by
    rw [← Query.isFinite_shown p, ← hshown, Query.isFinite_shown, hq]
  rw [Query.shown_eq_self q hq, Query.shown_eq_self p hp] at hshown
  exact hshown

/-! ### Texts -/

section Written

open Json (Written ItemsWritten MembersWritten)

variable {α : Type} (name : String)

theorem itemsWritten_iff {js : List Json} : ItemsWritten js ↔ ∀ j ∈ js, j.Written := by
  induction js with
  | nil => simp [ItemsWritten]
  | cons j js ih => rw [ItemsWritten, ih, List.forall_mem_cons]

@[simp] theorem membersWritten_append {ms ns : List (String × Json)} :
    MembersWritten (ms ++ ns) ↔ MembersWritten ms ∧ MembersWritten ns := by
  induction ms with
  | nil => simp [MembersWritten]
  | cons m ms ih => rw [List.cons_append, MembersWritten, MembersWritten, ih, and_assoc]

@[simp] theorem membersWritten_field {j : Json} : MembersWritten (field name j) ↔ j.Written := by
  simp [field, MembersWritten]

theorem membersWritten_fieldIfSome {f : α → Json} (hf : ∀ a, (f a).Written) (o : Option α) :
    MembersWritten (fieldIfSome name f o) := by
  cases o with
  | none => trivial
  | some a => exact (membersWritten_field name).2 (hf a)

@[simp] theorem membersWritten_fieldIfTrue (flag : Bool) :
    MembersWritten (fieldIfTrue name flag) := by
  cases flag with
  | false => trivial
  | true => exact ⟨trivial, trivial⟩

theorem membersWritten_fieldOfItems {js : List Json} (h : ItemsWritten js) :
    MembersWritten (fieldOfItems name js) := by
  cases js with
  | nil => trivial
  | cons j js => exact ⟨h, trivial⟩

theorem itemsWritten_map {f : α → Json} (hf : ∀ a, (f a).Written) (xs : List α) :
    ItemsWritten (xs.map f) := by
  rw [itemsWritten_iff]
  intro j hj
  obtain ⟨x, -, rfl⟩ := List.mem_map.1 hj
  exact hf x

theorem membersWritten_fieldIfAny {f : α → Json} (hf : ∀ a, (f a).Written) (xs : List α) :
    MembersWritten (fieldIfAny name f xs) := by
  cases xs with
  | nil => trivial
  | cons x xs => exact ⟨itemsWritten_map hf (x :: xs), trivial⟩

@[simp] theorem written_text (s : String) : (Json.text s).Written := trivial

@[simp] theorem written_nat (n : Nat) : (Json.nat n).Written :=
  Numeral.wellFormed_ofInt n

@[simp] theorem Reference.written_members (r : Reference) : MembersWritten r.members := by
  have hlabel := membersWritten_fieldIfSome "alias" written_text r.label
  simp [members, hlabel]

@[simp] theorem Reference.written_toJson (r : Reference) : r.toJson.Written :=
  r.written_members

@[simp] theorem Argument.written_toJson (a : Argument) : a.toJson.Written := by
  cases a with
  | column c => simp [toJson, Written]
  | arithmetic left op right => simp [toJson, Written]
  | raw sql => simp [toJson, Written]

@[simp] theorem Aggregate.written_members (a : Aggregate) : MembersWritten a.members := by
  have hlabel := membersWritten_fieldIfSome "alias" written_text a.label
  simp [members, hlabel]

@[simp] theorem Item.written_toJson (i : Item) : i.toJson.Written := by
  cases i with
  | column c => simp [toJson, Written]
  | aggregate a => simp [toJson, Written]

theorem SortKey.written_toJson (k : SortKey) : k.toJson.Written := by
  have hdirection := membersWritten_fieldIfSome "direction"
    (fun d : Direction => written_text d.keyword) k.direction
  simp [toJson, Written, hdirection]

/-- A float stands as a number of the grammar or as null. -/
@[simp] theorem written_float (x : Float) : (Json.float x).Written := by
  unfold Json.float
  split
  · exact Numeral.wellFormed_ofFloat x
  · trivial

@[simp] theorem Literal.written_toJson (v : Literal) : v.toJson.Written := by
  have hint : ∀ n : Int, (Json.int n).Written := Numeral.wellFormed_ofInt
  cases v with
  | integer n => simp [toJson, toJson.typed, Written, hint]
  | float x => simp [toJson, toJson.typed, Written]
  | text s => simp [toJson, toJson.typed, Written]
  | boolean b => simp [toJson, toJson.typed, Written]
  | date s => simp [toJson, toJson.typed, Written]

@[simp] theorem Operand.written_toJson (a : Operand) : a.toJson.Written := by
  cases a with
  | column c => simp [toJson, Written]
  | aggregate a => simp [toJson, Written]
  | monthOf c => simp [toJson, Written]
  | literal v => simp [toJson, Written]

mutual

theorem Comparand.written_toJson : ∀ c : Comparand, c.toJson.Written
  | .literal v => by simp [Comparand.toJson, Written]
  | .list vs => by
      have hvs := itemsWritten_map Literal.written_toJson vs
      simp [Comparand.toJson, Json.list, Written, hvs]
  | .range low high => by simp [Comparand.toJson, Written]
  | .null => by simp [Comparand.toJson, Written]
  | .daysAgo n => by simp [Comparand.toJson, Written]
  | .column c => by simp [Comparand.toJson, Written]
  | .subquery q => by
      have hq := Query.written_toJson q
      simp [Comparand.toJson, Written, hq]

theorem Condition.written_allToJson : ∀ cs : List Condition,
    ItemsWritten (Condition.allToJson cs)
  | [] => trivial
  | ⟨lhs, op, rhs⟩ :: cs => by
      have hrhs := Comparand.written_toJson rhs
      have hcs := Condition.written_allToJson cs
      simp [Condition.allToJson, Condition.toJson, ItemsWritten, Written, hrhs, hcs]

theorem Join.written_allToJson : ∀ js : List Join, ItemsWritten (Join.allToJson js)
  | [] => trivial
  | ⟨kind, left, right, conditions⟩ :: js => by
      have hon := membersWritten_fieldOfItems "conditions" (Condition.written_allToJson conditions)
      have hjs := Join.written_allToJson js
      simp [Join.allToJson, Join.toJson, ItemsWritten, Written, hon, hjs]

/-- The numbers in the document of a query are numbers of the grammar. -/
theorem Query.written_toJson : ∀ q : Query, q.toJson.Written
  | ⟨source, items, joins, filters, groupBy, having, orderBy, limit, distinct⟩ => by
      have hitems := itemsWritten_map Item.written_toJson items
      have hjoins := membersWritten_fieldOfItems "joins" (Join.written_allToJson joins)
      have hfilters := membersWritten_fieldOfItems "where" (Condition.written_allToJson filters)
      have hgroup := membersWritten_fieldIfAny "group_by" Reference.written_toJson groupBy
      have hhaving := membersWritten_fieldOfItems "having" (Condition.written_allToJson having)
      have horder := membersWritten_fieldIfAny "order_by" SortKey.written_toJson orderBy
      have hlimit := membersWritten_fieldIfSome "limit" written_nat limit
      simp [Query.toJson, Written, Json.list, hitems, hjoins, hfilters, hgroup, hhaving, horder,
        hlimit]

end

end Written

/-- The text of a query is read as its document. -/
theorem Query.parse?_toText (q : Query) : Json.parse? q.toText = some q.toJson :=
  Json.parse?_render q.written_toJson

/-- The text of a query gives its document and can be told from what follows it. -/
theorem Query.toJson_eq_of_toText_append {q p : Query} {rest rest' : List Char}
    (hrest : Json.EndsNumber rest) (hrest' : Json.EndsNumber rest')
    (h : q.toText.toList ++ rest = p.toText.toList ++ rest') :
    q.toJson = p.toJson ∧ rest = rest' := by
  simp only [toText, Json.render, String.toList_ofList] at h
  exact Json.chars_append_unique q.written_toJson p.written_toJson hrest hrest' h

/-- Where its floats are finite, it gives the query. -/
theorem Query.toText_append_inj {q p : Query} (hq : q.isFinite = true) {rest rest' : List Char}
    (hrest : Json.EndsNumber rest) (hrest' : Json.EndsNumber rest')
    (h : q.toText.toList ++ rest = p.toText.toList ++ rest') : q = p ∧ rest = rest' := by
  obtain ⟨hjson, hafter⟩ := toJson_eq_of_toText_append hrest hrest' h
  exact ⟨Query.toJson_inj q p hq hjson, hafter⟩

end AskSql
