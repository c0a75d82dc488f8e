import AskSql.Compose.Service
import AskSql.Proofs.Query.Nested
import AskSql.Proofs.Query.RoundTrip
import AskSql.Proofs.Schema.Outline
import AskSql.Proofs.Text.Pieces

/-!
# What a service may reply

The reply of a service is any text.  It is accepted exactly if it holds a query, all references are
in scope, in the query and in those inside of its conditions, and the tables of the query are
tables of the schema (`Service.query_eq_ok_iff`).

The two checks do not go equally far.  The one of the references goes to all queries inside of the
reply; the one of the tables stays with the outermost query.  So a query that was accepted reads
known tables only if its subqueries do (`Service.accepted_reads`), and these may read any table.
-/

namespace AskSql
namespace Service

variable {service : Service} {s : Schema} {default : Option String} {text : String} {q : Query}

/-! ### The reply -/

/-- What a fence is put around begins with it. -/
theorem after?_fence_of_head {c : Char} (hc : c ≠ '\x60') (ds cs : List Char) :
    after? (fence ++ ds) (c :: cs) = none := by
  have hbeq : ('\x60' == c) = false := by simpa using Ne.symm hc
  simp only [fence, List.cons_append, after?, hbeq, Bool.false_eq_true, if_false]

/-- The text of a query that stands alone in a reply is taken as it is. -/
theorem unfenced_toText (q : Query) : unfenced q.toText = q.toText := by
  obtain ⟨body, hbody⟩ : ∃ body, q.toText.toList = '\x7b' :: (body ++ ['\x7d']) := by
    cases q
    rw [Query.toText, Json.render, Query.toJson, String.toList_ofList, Json.chars]
    exact ⟨_, rfl⟩
  have htrim : Text.trimChars q.toText.toList = q.toText.toList := by
    rw [hbody]
    refine Text.trimChars_eq_self (fun c hc => ?_) fun c hc => ?_
    · obtain rfl := Option.some.inj hc
      rfl
    · rw [← List.cons_append, List.getLast?_append, List.getLast?_singleton] at hc
      obtain rfl := Option.some.inj hc
      rfl
  -- the text begins with a brace, so no fence is found in it
  have hopened (ds : List Char) : after? (fence ++ ds) q.toText.toList = none := by
    rw [hbody]
    exact after?_fence_of_head (by decide) ds _
  have hfence : after? fence q.toText.toList = none := by
    simpa using hopened []
  simp only [unfenced, htrim, hopened, hfence]
  exact String.ofList_toList

/-- The query of a reply. -/
theorem request_eq_ok_iff {prompt : String} :
    service.request prompt = .ok q ↔
      ∃ reply, service prompt = .ok reply ∧ Query.ofText? (unfenced reply) = some q := by
  unfold request
  cases service prompt with
  | error reason => simp
  | ok reply =>
      cases hread : Query.ofText? (unfenced reply) <;> simp [hread]

/-! ### What is accepted -/

/-- No table of the query is unknown exactly if all of them are known. -/
theorem unknownTable?_eq_none_iff :
    unknownTable? s q = none ↔ ∀ t ∈ q.tables, (s.table? t).isSome := by
  simp only [unknownTable?, List.find?_eq_none, Bool.not_eq_true, Option.isNone_eq_false_iff]

/-- A query is accepted exactly if the service replies it, the references of it and of all queries
inside of it are in scope, and its own tables are known. -/
theorem query_eq_ok_iff :
    service.query s default text = .ok q ↔
      (∃ reply, service (prompt s default text) = .ok reply ∧
        Query.ofText? (unfenced reply) = some q) ∧
      (∀ p, q.Encloses p → p.checkScope = .ok ()) ∧ ∀ t ∈ q.tables, (s.table? t).isSome := by
  rw [query, Failure.bind_eq_ok_iff, ← request_eq_ok_iff,
    ← Query.validate_eq_ok_iff_forall_encloses, ← unknownTable?_eq_none_iff]
  simp only [Failure.check_eq_ok_iff]
  constructor
  · rintro ⟨p, hreply, hvalid, haccepted⟩
    cases hunknown : unknownTable? s p with
    | none =>
        rw [hunknown] at haccepted
        obtain rfl := Except.ok.inj haccepted
        exact ⟨hreply, hvalid, hunknown⟩
    | some table =>
        rw [hunknown] at haccepted
        cases haccepted
  · rintro ⟨hreply, hvalid, hunknown⟩
    exact ⟨q, hreply, hvalid, by rw [hunknown]; rfl⟩

/-- A query that was accepted refers to tables of the schema, and the references of all queries
inside of it are in scope.  All tables that it reads are tables of the schema exactly if those are
that its subqueries read. -/
theorem accepted_reads (h : service.query s default text = .ok q) :
    (∀ p, q.Encloses p → p.checkScope = .ok ()) ∧
      (∀ t ∈ q.tables, (s.table? t).isSome) ∧
      (∀ x ∈ q.references, (s.table? x.2.table).isSome) ∧
      ((∀ t, q.Reads t → (s.table? t).isSome) ↔
        ∀ sub ∈ q.subqueries, ∀ t, sub.Reads t → (s.table? t).isSome) := by
  obtain ⟨-, hscope, hknown⟩ := query_eq_ok_iff.1 h
  refine ⟨hscope, hknown, fun x hx => ?_, ?_⟩
  · obtain ⟨-, -, hrefs⟩ := (Query.checkScope_eq_ok_iff q).1 (hscope q (.refl q))
    obtain ⟨t, ht, hfold⟩ := List.mem_map.1 (hrefs x hx)
    rw [s.table?_eq_of_lower_eq hfold.symm]
    exact hknown t ht
  · constructor
    · exact fun h sub hsub t ht => h t (.subquery hsub ht)
    · intro h t ht
      obtain ht | ⟨sub, hsub, ht⟩ := Query.reads_iff.1 ht
      · exact hknown t ht
      · exact h sub hsub t ht

/-! ### A reply that reads two tables -/

/-- The orders of customers that are on record. -/
def recordedOrders : Query where
  source := "orders"
  items := [.column ⟨"orders", "id", none⟩]
  filters := [
    ⟨.column ⟨"orders", "customer_id", none⟩, .isIn, .subquery {
      source := "customers"
      items := [.column ⟨"customers", "id", none⟩] }⟩]

/-- Tables of some names. -/
def namedTables (names : List String) : Schema where
  tables := names.map fun name => { name := name, columns := [] }

/-- The service replies the orders on record whatever it is asked. -/
def replyRecorded : Service :=
  fun _ => .ok recordedOrders.toText

theorem ofText?_recordedOrders : Query.ofText? recordedOrders.toText = some recordedOrders := by
  have hrange : recordedOrders.inRange = true := by decide +kernel
  have hdepth : recordedOrders.toJson.depth ≤ Json.nestingLimit := by decide +kernel
  have hfloats : recordedOrders.floats = [] := rfl
  rw [Query.ofText?_toText]
  refine (Query.takenBack _ _ (.direct Json.nestingLimit) hrange hdepth (Nat.lt_succ_self _)).2 ?_
  simp [hfloats]

/-- The reply is accepted wherever there are orders. -/
theorem query_replyRecorded (h : (s.table? "orders").isSome) :
    replyRecorded.query s none "recorded orders" = .ok recordedOrders := by
  refine query_eq_ok_iff.2 ⟨⟨recordedOrders.toText, rfl, ?_⟩, ?_, ?_⟩
  · rw [unfenced_toText, ofText?_recordedOrders]
  · exact (Query.validate_eq_ok_iff_forall_encloses recordedOrders).1 rfl
  · exact List.forall_mem_singleton.2 h

theorem accepted_reads_recordedOrders :
    replyRecorded.query (namedTables ["Orders", "customers"]) none "recorded orders" =
        .ok recordedOrders ∧
      ∀ t, recordedOrders.Reads t →
        ((namedTables ["Orders", "customers"]).table? t).isSome := by
  have haccepted :=
    query_replyRecorded (s := namedTables ["Orders", "customers"]) (by decide +kernel)
  obtain ⟨-, -, -, hreads⟩ := accepted_reads haccepted
  refine ⟨haccepted, hreads.2 fun sub hsub t ht => ?_⟩
  obtain rfl := List.mem_singleton.1 hsub
  obtain ht | ⟨_, hnone, -⟩ := Query.reads_iff.1 ht
  · obtain rfl := List.mem_singleton.1 ht
    decide +kernel
  · cases hnone

/-- The reply is accepted where there are no customers, although its subquery reads them. -/
theorem accepted_reads_unknown :
    replyRecorded.query (namedTables ["orders"]) none "recorded orders" = .ok recordedOrders ∧
      recordedOrders.Reads "customers" ∧ (namedTables ["orders"]).table? "customers" = none := by
  refine ⟨query_replyRecorded (by decide +kernel), ?_, by decide +kernel⟩
  exact .subquery List.mem_cons_self (.table List.mem_cons_self)

end Service
end AskSql
