import AskSql.Render.Statement

/-!
# Statements as rows of pieces

A statement is a row of pieces: text that is fixed, and values from the query.  `Statement.select`
and its kin give the pieces of a query without saying how the values are written; that is settled
when the row is read (`Statement.read`).  Writing a query with or without parameters comes to the
same as reading its row of pieces in the one way or the other (`writes_select`).
-/

namespace AskSql

/-- A piece of a statement. -/
inductive Piece where
  | text (text : String)
  | value (value : Literal)

/-- A statement as the row of its pieces. -/
abbrev Statement := List Piece

namespace Statement

/-- The values of a statement in the order of the text. -/
def parameters : Statement → List Literal
  | [] => []
  | .text _ :: rest => parameters rest
  | .value v :: rest => v :: parameters rest

/-- The values that become parameters. -/
def kept (parameterized : Bool) (s : Statement) : List Literal :=
  if parameterized then s.parameters else []

/-- The text of a statement whose first placeholder has the number `n`. -/
def read (d : Dialect) (parameterized : Bool) : Nat → Statement → String
  | _, [] => ""
  | n, .text s :: rest => s ++ read d parameterized n rest
  | n, .value v :: rest =>
    if parameterized then d.placeholder n ++ read d parameterized (n + 1) rest
    else v.sql d ++ read d parameterized n rest

/-- The texts of some statements, with the placeholders numbered through all of them. -/
def readAll (d : Dialect) (parameterized : Bool) : Nat → List Statement → List String
  | _, [] => []
  | n, s :: ss =>
    s.read d parameterized n ::
      readAll d parameterized (n + (s.kept parameterized).length) ss

/-- Puts a text between the statements of a list. -/
def join (between : String) : List Statement → Statement
  | [] => []
  | [s] => s
  | s :: rest => s ++ .text between :: join between rest

/-- Statements without values. -/
def texts (ss : List String) : List Statement :=
  ss.map fun s => [.text s]

/-- A clause of conditions, unless there are none. -/
def conditionClause (keyword : String) : List Statement → List Statement
  | [] => []
  | parts => [.text keyword :: join " AND " parts]

/-- The left side of a condition. -/
def operand (d : Dialect) : Operand → Except Failure Statement
  | .column c => .ok [.text (d.reference c)]
  | .aggregate a => (d.aggregate a).map fun s => [.text s]
  | .monthOf c => (d.monthOf c).map fun s => [.text s]
  | .literal v => .ok [.value v]

mutual

/-- A condition. -/
def condition (d : Dialect) : Condition → Except Failure Statement
  | ⟨lhs, op, rhs⟩ => do
    if op = .iLike && !d.hasILike then throw (.unsupportedIn "ILIKE" d.name)
    let left ← operand d lhs
    let right ← comparison d op rhs
    return left ++ right

/-- What follows the left side of a condition. -/
def comparison (d : Dialect) (op : Comparison) : Comparand → Except Failure Statement
  | .subquery q =>
    match op with
    | .isNull => .ok [.text " IS NULL"]
    | .isNotNull => .ok [.text " IS NOT NULL"]
    | .between => .error (.mismatchedSides op (.subquery q))
    | _ => do
      q.validate
      let inner ← select d " " q
      return .text (" " ++ op.sql ++ " (") :: inner ++ [.text ")"]
  | rhs =>
    match op, rhs with
    | .isNull, _ | .eq, .null => .ok [.text " IS NULL"]
    | .isNotNull, _ | .notEq, .null => .ok [.text " IS NOT NULL"]
    | .between, .range low high =>
      .ok [.text " BETWEEN ", .value low, .text " AND ", .value high]
    | .between, _ => .error (.mismatchedSides op rhs)
    | .isIn, .list vs | .notIn, .list vs =>
      if vs.isEmpty then .error (.emptyList op)
      else
        .ok (.text (" " ++ op.sql ++ " (") :: join ", " (vs.map fun v => [.value v]) ++
          [.text ")"])
    | .isIn, .literal v | .notIn, .literal v =>
      .ok (.text (" " ++ op.sql ++ " (") :: [.value v] ++ [.text ")"])
    | .isIn, .daysAgo _ | .notIn, .daysAgo _ | .isIn, .column _ | .notIn, .column _ =>
      .error (.mismatchedSides op rhs)
    | _, .range .. | _, .list _ | _, .null => .error (.mismatchedSides op rhs)
    | _, .literal v => .ok [.text (" " ++ op.sql ++ " "), .value v]
    | _, .column c => .ok [.text (" " ++ op.sql ++ " " ++ d.reference c)]
    | _, .daysAgo n => do
      let day ← (d.daysAgo n).map fun s => [.text s]
      return .text (" " ++ op.sql ++ " ") :: day
    | _, .subquery _ => .error (.mismatchedSides op rhs)

/-- Conditions one after the other. -/
def conditions (d : Dialect) : List Condition → Except Failure (List Statement)
  | [] => .ok []
  | c :: cs => do
    let here ← condition d c
    let rest ← conditions d cs
    return here :: rest

/-- The clauses of some joins. -/
def joins (d : Dialect) : List Join → Except Failure (List Statement)
  | [] => .ok []
  | ⟨kind, left, right, cs⟩ :: js => do
    let extra ← conditions d cs
    let on : Statement := [.text (d.reference left ++ " = " ++ d.reference right)]
    let here : Statement :=
      .text (kind.sql ++ " " ++ d.quoteName right.table ++ " ON ") :: join " AND " (on :: extra)
    let rest ← joins d js
    return here :: rest

/-- A query that is well scoped, with a text between its clauses. -/
def select (d : Dialect) (between : String) : Query → Except Failure Statement
  | ⟨source, is, js, filters, groupBy, having, orderBy, limit, distinct⟩ => do
    let selected ← d.items source is
    let joined ← joins d js
    let filtered ← conditions d filters
    let grouped ← conditions d having
    let ordered ← d.orderKeys is orderBy
    let keyword := if distinct then "SELECT DISTINCT " else "SELECT "
    return join between <|
      texts (Dialect.clause keyword ", " selected) ++
        texts ["FROM " ++ d.quoteName source] ++
        joined ++
        conditionClause "WHERE " filtered ++
        texts (Dialect.clause "GROUP BY " ", " (groupBy.map d.reference)) ++
        conditionClause "HAVING " grouped ++
        texts (Dialect.clause "ORDER BY " ", " ordered) ++
        texts (limit.toList.map d.limit)

end

/-! ### Reading -/

section Reading

variable (d : Dialect) (p : Bool)

@[simp] theorem kept_nil : kept p [] = [] := by
  cases p <;> rfl

@[simp] theorem kept_text (s : String) (rest : Statement) :
    kept p (.text s :: rest) = kept p rest := by
  cases p <;> rfl

theorem parameters_append (s t : Statement) :
    parameters (s ++ t) = parameters s ++ parameters t := by
  induction s with
  | nil => rfl
  | cons piece s ih =>
      cases piece with
      | text _ => exact ih
      | value v => simp [parameters, ih]

@[simp] theorem kept_append (s t : Statement) : kept p (s ++ t) = kept p s ++ kept p t := by
  cases p with
  | false => rfl
  | true => exact parameters_append s t

theorem read_append (n : Nat) (s t : Statement) :
    read d p n (s ++ t) = read d p n s ++ read d p (n + (kept p s).length) t := by
  induction s generalizing n with
  | nil => simp [read]
  | cons piece s ih =>
      cases piece with
      | text _ => simp [read, ih, String.append_assoc]
      | value v =>
          cases p with
          | false => simp [read, ih, kept, String.append_assoc]
          | true =>
              have hnext : n + 1 + (parameters s).length = n + ((parameters s).length + 1) := by
                omega
              simp [read, ih, kept, parameters, String.append_assoc, hnext]

theorem readAll_append (n : Nat) (ss ts : List Statement) :
    readAll d p n (ss ++ ts) =
      readAll d p n ss ++ readAll d p (n + (kept p ss.flatten).length) ts := by
  induction ss generalizing n with
  | nil => simp [readAll]
  | cons s ss ih => simp [readAll, ih, Nat.add_assoc]

theorem kept_join (between : String) (ss : List Statement) :
    kept p (join between ss) = kept p ss.flatten := by
  induction ss with
  | nil => rfl
  | cons s ss ih =>
      cases ss with
      | nil => simp [join]
      | cons t ts => simp [join, ih]

/-- The text of a list of statements with another text between them. -/
theorem read_join (between : String) (n : Nat) (ss : List Statement) :
    read d p n (join between ss) = between.intercalate (readAll d p n ss) := by
  induction ss generalizing n with
  | nil => simp [join, readAll, read]
  | cons s ss ih =>
      cases ss with
      | nil => simp [join, readAll]
      | cons t ts =>
          have htail := ih (n + (kept p s).length)
          simp only [join, readAll] at htail ⊢
          rw [read_append, read, htail, String.intercalate_cons_cons, String.append_assoc]

@[simp] theorem readAll_texts (n : Nat) (ss : List String) : readAll d p n (texts ss) = ss := by
  induction ss with
  | nil => rfl
  | cons s ss ih =>
      have htail : readAll d p n (texts ss) = ss := ih
      simp only [texts] at htail
      simp [texts, readAll, read, htail]

@[simp] theorem kept_texts (ss : List String) : kept p (texts ss).flatten = [] := by
  induction ss with
  | nil => simp [texts]
  | cons s ss ih => simpa [texts] using ih

theorem readAll_conditionClause (keyword : String) (n : Nat) (ss : List Statement) :
    readAll d p n (conditionClause keyword ss) =
      Dialect.clause keyword " AND " (readAll d p n ss) := by
  cases ss with
  | nil => rfl
  | cons s ss =>
      have hread := read_join d p " AND " n (s :: ss)
      simp only [readAll] at hread
      simp only [conditionClause, readAll, read, hread, Dialect.clause]

theorem kept_conditionClause (keyword : String) (ss : List Statement) :
    kept p (conditionClause keyword ss).flatten = kept p ss.flatten := by
  cases ss with
  | nil => rfl
  | cons s ss => simp [conditionClause, kept_join]

end Reading

end Statement

/-! ### Writing comes to reading pieces -/

namespace Writer

variable {α β : Type}

theorem pure_apply (a : α) (ps : List Literal) : (pure a : Writer α) ps = .ok (a, ps) := rfl

theorem bind_apply (x : Writer α) (f : α → Writer β) (ps : List Literal) :
    (x >>= f) ps = (x ps).bind fun r => f r.1 r.2 := rfl

theorem lift_apply (x : Except Failure α) (ps : List Literal) :
    (liftM x : Writer α) ps = x.map fun a => (a, ps) := by
  cases x <;> rfl

end Writer

/-- What is written is a row of pieces, read from the next parameter on. -/
def Writes (d : Dialect) (p : Bool) (w : Writer String) (e : Except Failure Statement) : Prop :=
  ∀ ps : List Literal, w ps = e.map fun s => (s.read d p (ps.length + 1), ps ++ s.kept p)

/-- What is written are rows of pieces, read one after the other. -/
def WritesAll (d : Dialect) (p : Bool) (w : Writer (List String))
    (e : Except Failure (List Statement)) : Prop :=
  ∀ ps : List Literal, w ps = e.map fun ss =>
    (Statement.readAll d p (ps.length + 1) ss, ps ++ Statement.kept p ss.flatten)

section Writing

variable (d : Dialect) (p : Bool)

theorem writes_text (s : String) : Writes d p (pure s) (.ok [.text s]) := by
  intro ps
  simp [Writer.pure_apply, Except.map, Statement.read]

theorem writes_lift (x : Except Failure String) :
    Writes d p (liftM x) (x.map fun s => [.text s]) := by
  intro ps
  cases x with
  | error e => rfl
  | ok s => simp [Writer.lift_apply, Except.map, Statement.read]

theorem writes_throw (e : Failure) : Writes d p (throw e) (.error e) := by
  intro ps
  rfl

/-- A value takes the next parameter. -/
theorem writes_value (v : Literal) : Writes d p (d.value p v) (.ok [.value v]) := by
  intro ps
  cases p with
  | false => simp [Dialect.value, Writer.pure_apply, Except.map, Statement.read, Statement.kept]
  | true =>
      simp only [Dialect.value, if_true, Except.map, Statement.read, String.append_empty]
      rfl

/-- After some parameters the next one has the number that follows theirs. -/
theorem length_append_succ (ps ks : List Literal) :
    (ps ++ ks).length + 1 = ps.length + 1 + ks.length := by
  rw [List.length_append]
  omega

variable {d p}

/-- One statement behind another. -/
theorem Writes.append {x y : Writer String} {ex ey : Except Failure Statement}
    (hx : Writes d p x ex) (hy : Writes d p y ey) :
    Writes d p (do let a ← x; let b ← y; return a ++ b)
      (do let s ← ex; let t ← ey; return s ++ t) := by
  intro ps
  rw [Writer.bind_apply, hx ps]
  cases ex with
  | error e => rfl
  | ok s =>
      -- the second statement starts behind the parameters of the first one
      change (y >>= _) (ps ++ Statement.kept p s) = _
      rw [Writer.bind_apply, hy]
      cases ey with
      | error e => rfl
      | ok t =>
          show Except.ok (_, _) = Except.ok (_, _)
          dsimp only
          rw [length_append_succ, Statement.read_append, Statement.kept_append, List.append_assoc]

/-- One statement in front of others. -/
theorem WritesAll.cons {x : Writer String} {y : Writer (List String)}
    {ex : Except Failure Statement} {ey : Except Failure (List Statement)}
    (hx : Writes d p x ex) (hy : WritesAll d p y ey) :
    WritesAll d p (do let a ← x; let b ← y; return a :: b)
      (do let s ← ex; let t ← ey; return s :: t) := by
  intro ps
  rw [Writer.bind_apply, hx ps]
  cases ex with
  | error e => rfl
  | ok s =>
      change (y >>= _) (ps ++ Statement.kept p s) = _
      rw [Writer.bind_apply, hy]
      cases ey with
      | error e => rfl
      | ok ss =>
          show Except.ok (_, _) = Except.ok (_, _)
          dsimp only
          rw [length_append_succ, List.flatten_cons, Statement.kept_append, List.append_assoc]
          rfl

/-- A statement behind a text. -/
theorem Writes.behind {x : Writer String} {ex : Except Failure Statement}
    (hx : Writes d p x ex) (before : String) :
    Writes d p (do let a ← x; return before ++ a)
      (do let s ← ex; return .text before :: s) := by
  intro ps
  rw [Writer.bind_apply, hx ps]
  cases ex with
  | error e => rfl
  | ok s =>
      show Except.ok (_, _) = Except.ok (_, _)
      dsimp only
      rw [Statement.kept_text, Statement.read]

/-- A statement between two texts. -/
theorem Writes.surround {x : Writer String} {ex : Except Failure Statement}
    (hx : Writes d p x ex) (before after : String) :
    Writes d p (do let a ← x; return before ++ a ++ after)
      (do let s ← ex; return .text before :: s ++ [.text after]) := by
  intro ps
  rw [Writer.bind_apply, hx ps]
  cases ex with
  | error e => rfl
  | ok s =>
      show Except.ok (_, _) = Except.ok (_, _)
      dsimp only
      rw [List.cons_append, Statement.kept_text, Statement.kept_append, Statement.read,
        Statement.read_append]
      simp [Statement.read, String.append_assoc]

/-- Statements with a text between them, behind another text. -/
theorem WritesAll.join {x : Writer (List String)} {ex : Except Failure (List Statement)}
    (hx : WritesAll d p x ex) (before between after : String) :
    Writes d p (do let as ← x; return before ++ between.intercalate as ++ after)
      (do let ss ← ex; return .text before :: Statement.join between ss ++ [.text after]) := by
  intro ps
  rw [Writer.bind_apply, hx ps]
  cases ex with
  | error e => rfl
  | ok ss =>
      show Except.ok (_, _) = Except.ok (_, _)
      dsimp only
      rw [List.cons_append, Statement.kept_text, Statement.kept_append, Statement.read,
        Statement.read_append, Statement.read_join, Statement.kept_join]
      simp [Statement.read, String.append_assoc]

variable (d p)

theorem writesAll_nil : WritesAll d p (pure []) (.ok []) := by
  intro ps
  simp [Writer.pure_apply, Except.map, Statement.readAll]

theorem writesAll_values (vs : List Literal) :
    WritesAll d p (d.values p vs) (.ok (vs.map fun v => [.value v])) := by
  induction vs with
  | nil => exact writesAll_nil d p
  | cons v vs ih => exact WritesAll.cons (writes_value d p v) ih

theorem writes_operand (o : Operand) : Writes d p (d.operand p o) (Statement.operand d o) := by
  cases o with
  | column c => exact writes_text d p _
  | aggregate a => exact writes_lift d p _
  | monthOf c => exact writes_lift d p _
  | literal v => exact writes_value d p v

theorem writes_range (low high : Literal) :
    Writes d p
      (do
        let low ← d.value p low
        let high ← d.value p high
        return " BETWEEN " ++ low ++ " AND " ++ high)
      (.ok [.text " BETWEEN ", .value low, .text " AND ", .value high]) := by
  intro ps
  rw [Writer.bind_apply, writes_value]
  show (d.value p high >>= _) (ps ++ Statement.kept p [.value low]) = _
  rw [Writer.bind_apply, writes_value]
  show Except.ok (_, _) = Except.ok (_, _)
  dsimp only
  cases p with
  | false => simp [Statement.read, Statement.kept, String.append_assoc]
  | true => simp [Statement.read, Statement.kept, Statement.parameters, String.append_assoc]

mutual

/-- Writing a condition comes to reading its pieces. -/
theorem writes_condition : ∀ c : Condition,
    Writes d p (d.condition p c) (Statement.condition d c)
  | ⟨lhs, op, rhs⟩ => by
      have hboth := Writes.append (writes_operand d p lhs) (writes_comparison op rhs)
      simp only [Dialect.condition, Statement.condition]
      by_cases hlike : (op = .iLike && !d.hasILike) = true
      · simp only [hlike, if_true]
        exact writes_throw d p _
      · simp only [hlike]
        exact hboth

/-- Writing a right side comes to reading its pieces. -/
theorem writes_comparison (op : Comparison) : ∀ rhs : Comparand,
    Writes d p (d.comparison p op rhs) (Statement.comparison d op rhs)
  | .literal v => by
      have hlist := (writes_value d p v).surround (" " ++ op.sql ++ " (") ")"
      have hplain := (writes_value d p v).behind (" " ++ op.sql ++ " ")
      cases op
      case isNull | isNotNull => exact writes_text d p _
      case between => exact writes_throw d p _
      case isIn | notIn => exact hlist
      all_goals exact hplain
  | .list vs => by
      cases op
      case isNull | isNotNull => exact writes_text d p _
      case isIn | notIn =>
        cases vs with
        | nil => exact writes_throw d p _
        | cons v vs => exact (writesAll_values d p (v :: vs)).join _ ", " ")"
      all_goals exact writes_throw d p _
  | .range low high => by
      cases op
      case isNull | isNotNull => exact writes_text d p _
      case between => exact writes_range d p low high
      all_goals exact writes_throw d p _
  | .null => by
      cases op
      case isNull | isNotNull | eq | notEq => exact writes_text d p _
      all_goals exact writes_throw d p _
  | .daysAgo n => by
      have hday := (writes_lift d p (d.daysAgo n)).behind (" " ++ op.sql ++ " ")
      cases op
      case isNull | isNotNull => exact writes_text d p _
      case between | isIn | notIn => exact writes_throw d p _
      all_goals exact hday
  | .column c => by
      cases op
      case isNull | isNotNull => exact writes_text d p _
      case between | isIn | notIn => exact writes_throw d p _
      all_goals exact writes_text d p _
  | .subquery q => by
      have hinner := (writes_select " " q).surround (" " ++ op.sql ++ " (") ")"
      have hchecked : Writes d p
          (do q.validate; let inner ← d.select p " " q; return " " ++ op.sql ++ " (" ++ inner ++ ")")
          (do
            q.validate
            let inner ← Statement.select d " " q
            return .text (" " ++ op.sql ++ " (") :: inner ++ [.text ")"]) := by
        intro ps
        rw [Writer.bind_apply, Writer.lift_apply]
        cases q.validate with
        | error e => rfl
        | ok _ => exact hinner ps
      cases op
      case isNull | isNotNull => exact writes_text d p _
      case between => exact writes_throw d p _
      all_goals exact hchecked

/-- Writing conditions comes to reading their pieces. -/
theorem writesAll_conditions : ∀ cs : List Condition,
    WritesAll d p (d.conditions p cs) (Statement.conditions d cs)
  | [] => writesAll_nil d p
  | c :: cs => by
      simp only [Dialect.conditions, Statement.conditions]
      exact WritesAll.cons (writes_condition c) (writesAll_conditions cs)

/-- Writing joins comes to reading their pieces. -/
theorem writesAll_joins : ∀ js : List Join,
    WritesAll d p (d.joins p js) (Statement.joins d js)
  | [] => writesAll_nil d p
  | ⟨kind, left, right, cs⟩ :: js => by
      have hcs := writesAll_conditions cs
      have hjs := writesAll_joins js
      intro ps
      simp only [Dialect.joins, Statement.joins]
      rw [Writer.bind_apply, hcs ps]
      cases Statement.conditions d cs with
      | error e => rfl
      | ok extra =>
          show (d.joins p js >>= _) (ps ++ Statement.kept p extra.flatten) = _
          rw [Writer.bind_apply, hjs]
          cases Statement.joins d js with
          | error e => rfl
          | ok rest =>
              show Except.ok (_, _) = Except.ok (_, _)
              dsimp only
              rw [length_append_succ]
              simp [Statement.readAll, Statement.read, Statement.read_join, Statement.kept_join]

/-- Writing a query comes to reading its pieces. -/
theorem writes_select (between : String) : ∀ q : Query,
    Writes d p (d.select p between q) (Statement.select d between q)
  | ⟨source, is, js, filters, groupBy, having, orderBy, limit, distinct⟩ => by
      have hjs := writesAll_joins js
      have hfilters := writesAll_conditions filters
      have hhaving := writesAll_conditions having
      -- the clauses are written one after the other, and any of them may fail
      intro ps
      simp only [Dialect.select, Statement.select]
      rw [Writer.bind_apply, Writer.lift_apply]
      cases d.items source is with
      | error e => rfl
      | ok selected =>
      show (d.joins p js >>= _) ps = _
      rw [Writer.bind_apply, hjs]
      cases Statement.joins d js with
      | error e => rfl
      | ok joined =>
      show (d.conditions p filters >>= _) _ = _
      rw [Writer.bind_apply, hfilters]
      cases Statement.conditions d filters with
      | error e => rfl
      | ok filtered =>
      show (d.conditions p having >>= _) _ = _
      rw [Writer.bind_apply, hhaving]
      cases Statement.conditions d having with
      | error e => rfl
      | ok grouped =>
      show (liftM (d.orderKeys is orderBy) >>= _ : Writer String) _ = _
      rw [Writer.bind_apply, Writer.lift_apply]
      cases d.orderKeys is orderBy with
      | error e => rfl
      | ok ordered =>
          show Except.ok (_, _) = Except.ok (_, _)
          dsimp only
          simp only [Statement.read_join, Statement.kept_join,
            Statement.readAll_append, Statement.readAll_texts, Statement.readAll_conditionClause,
            List.flatten_append, Statement.kept_append, Statement.kept_texts,
            Statement.kept_conditionClause, List.nil_append, List.append_nil, List.length_nil,
            Nat.zero_add, List.length_append, List.append_assoc, Nat.add_assoc, Nat.add_comm,
            Nat.add_left_comm]

end

end Writing

end AskSql
