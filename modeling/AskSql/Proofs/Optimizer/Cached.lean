import AskSql.Proofs.Optimizer.Locality
import AskSql.Proofs.Optimizer.Signature
import AskSql.Proofs.Optimizer.Store

/-!
# Kept results

Each result that the optimizer keeps is what one of the earlier requests came to, under the
signature of that request (`Optimizer.kept_after`).  Such a result is as good as a new one where the
signature says enough, and the signature leaves out
* the columns of the tables, apart from the names of those that have an index,
* the numbers of rows of tables that are read in subqueries alone,
* floats that are no number or infinite, which all stand as null.

Where these are the same, the answer to a request is the new result, whatever was asked before
(`Optimizer.optimize_after_requests`).  Where they are not, it may be out of date
(`Optimizer.optimize_after_requests_stale`).
-/

namespace AskSql
namespace Query

/-- A new result is not marked as kept. -/
theorem cached_optimize {m : CostModel} {q : Query} {r : Optimized} (h : q.optimize m = .ok r) :
    r.cached = false := by
  rw [optimize_eq] at h
  split at h
  · rw [(finish_eq_ok_iff.1 h).2]
  · rw [(finish_eq_ok_iff.1 h).2]

/-- What no signature says is the same in two schemas, for the tables that a query reads. -/
structure SameUnsigned (s s' : Schema) (q : Query) : Prop where
  outlines : ∀ t, q.Reads t → s.outline? t = s'.outline? t
  rows : ∀ t, q.Reads t → q.hasTable t = false → s.rowCount? t = s'.rowCount? t

variable {s s' : Schema} {o : OptimizerSettings} {q p : Query}

theorem SameUnsigned.readsSame (h : q.SameUnsigned s s') (hvalid : q.validate = .ok ())
    (hrows : ∀ t ∈ q.tables, s.rowCount? t = s'.rowCount? t) : q.ReadsSame s s' := by
  refine ⟨hvalid, fun t ht => ?_⟩
  cases hown : q.hasTable t with
  | false => exact ⟨h.outlines t ht, h.rows t ht hown⟩
  | true =>
      -- the key holds the rows of the table, maybe under a name in another case
      obtain ⟨u, hu, hfold⟩ := List.any_eq_true.1 hown
      have hsame : s.SameTable s' u := ⟨h.outlines u (.table hu), hrows u hu⟩
      exact hsame.of_lower_eq (eq_of_beq hfold).symm

/-- Queries of the same signature come to the same result. -/
theorem optimize_eq_of_signature_eq (hvalid : q.validate = .ok ()) (hfinite : q.isFinite = true)
    (hsignature : q.signature s = p.signature s') (h : q.SameUnsigned s s') :
    q.optimize ⟨s, o⟩ = p.optimize ⟨s', o⟩ := by
  obtain ⟨rfl, hrows⟩ :=
    signature_unique hfinite hsignature fun t ht => h.outlines t (.table ht)
  exact optimize_congr (h.readsSame hvalid hrows)

end Query

namespace Optimizer

/-- The optimizer after some requests. -/
def after (o : Optimizer) (requests : List (Query × Schema)) : Optimizer :=
  requests.foldl (fun o p => (o.optimize p.1 p.2).2) o

theorem settings_compute (o : Optimizer) (q : Query) (s : Schema) (key : String) :
    (o.compute q s key).2.settings = o.settings := by
  unfold compute
  split
  · rfl
  · rfl

@[simp] theorem settings_optimize (o : Optimizer) (q : Query) (s : Schema) :
    (o.optimize q s).2.settings = o.settings := by
  unfold optimize
  split
  · rfl
  · dsimp only
    split
    · rfl
    · exact settings_compute _ q s _

@[simp] theorem settings_after (o : Optimizer) (requests : List (Query × Schema)) :
    (o.after requests).settings = o.settings := by
  induction requests generalizing o with
  | nil => rfl
  | cons p rest ih => exact (ih _).trans (o.settings_optimize p.1 p.2)

theorem fst_compute (o : Optimizer) (q : Query) (s : Schema) (key : String) :
    (o.compute q s key).1 = q.optimize ⟨s, o.settings⟩ := by
  unfold compute
  split
  · next h => exact h.symm
  · next h => exact h.symm

/-- A new result is kept under the signature that it was computed for. -/
theorem mem_compute {o : Optimizer} {q : Query} {s : Schema} {key : String}
    {e : String × Optimized} (h : e ∈ (o.compute q s key).2.cache.entries) :
    e ∈ o.cache.entries ∨ e.1 = key ∧ q.optimize ⟨s, o.settings⟩ = .ok e.2 := by
  unfold compute at h
  split at h
  · next r hr =>
      obtain h | rfl := Cache.mem_insert h
      · exact .inl h
      · exact .inr ⟨rfl, hr⟩
  · exact .inl h

/-- Only valid queries are answered. -/
theorem validate_of_answer {o : Optimizer} {q : Query} {s : Schema} {r : Optimized}
    (h : (o.optimize q s).1 = .ok r) : q.validate = .ok () := by
  unfold optimize at h
  split at h
  · cases h
  · next hvalid => exact hvalid

/-- A valid query is answered by a result that is kept under its signature, or afresh. -/
theorem answer_cases (o : Optimizer) {q : Query} (s : Schema) (hvalid : q.validate = .ok ()) :
    ∃ n, (∃ r, (q.signature s, r) ∈ o.cache.entries ∧
        (o.optimize q s).1 =
          .ok (advise o.settings.frequentQueryThreshold n { r with cached := true })) ∨
      (o.optimize q s).1 =
        (q.optimize ⟨s, o.settings⟩).map (advise o.settings.frequentQueryThreshold n) := by
  refine ⟨(o.cache.record (q.signature s)).1, ?_⟩
  unfold optimize
  simp only [hvalid]
  split
  · next r hfound =>
      rw [Cache.fst_get?] at hfound
      exact .inl ⟨r, Keyed.mem_of_lookup hfound, rfl⟩
  · right
    rw [fst_compute, settings_compute]

/-- A request adds its own result, if any. -/
theorem mem_optimize {o : Optimizer} {q : Query} {s : Schema} {e : String × Optimized}
    (h : e ∈ (o.optimize q s).2.cache.entries) :
    e ∈ o.cache.entries ∨
      q.validate = .ok () ∧ e.1 = q.signature s ∧ q.optimize ⟨s, o.settings⟩ = .ok e.2 := by
  unfold optimize at h
  split at h
  · exact .inl h
  · next hvalid =>
      dsimp only at h
      split at h
      · rw [Cache.entries_get?] at h
        exact .inl h
      · obtain h | h := mem_compute h
        · rw [Cache.entries_get?] at h
          exact .inl h
        · exact .inr ⟨hvalid, h⟩

/-- Each result that is kept is what one of some requests came to. -/
def Keeps (o : Optimizer) (requests : List (Query × Schema)) : Prop :=
  ∀ e ∈ o.cache.entries, ∃ p ∈ requests, p.1.validate = .ok () ∧ e.1 = p.1.signature p.2 ∧
    p.1.optimize ⟨p.2, o.settings⟩ = .ok e.2

/-- One request more. -/
theorem Keeps.optimize {o : Optimizer} {requests : List (Query × Schema)} (h : o.Keeps requests)
    (p : Query × Schema) : (o.optimize p.1 p.2).2.Keeps (requests ++ [p]) := by
  intro e he
  rw [settings_optimize]
  -- what was kept is kept or dropped, never changed, and at most the new result is added
  obtain he | hown := mem_optimize he
  · obtain ⟨p', hp', hfacts⟩ := h e he
    exact ⟨p', List.mem_append_left _ hp', hfacts⟩
  · exact ⟨p, List.mem_append_right _ List.mem_cons_self, hown⟩

/-- All requests, by induction on their number. -/
theorem Keeps.after {o : Optimizer} {earlier : List (Query × Schema)} (h : o.Keeps earlier)
    (requests : List (Query × Schema)) : (o.after requests).Keeps (earlier ++ requests) := by
  induction requests generalizing o earlier with
  | nil => rwa [List.append_nil]
  | cons p rest ih =>
      have hrest := ih (h.optimize p)
      rwa [List.append_assoc] at hrest

theorem kept_after {o : Optimizer} (hempty : o.cache.entries = [])
    (requests : List (Query × Schema)) : (o.after requests).Keeps requests := by
  have hnone : o.Keeps [] := by
    intro e he
    rw [hempty] at he
    cases he
  exact hnone.after requests

/-- The query of an answer is the one that some query of the same signature was optimized to. -/
theorem exists_optimized_of_answer {o : Optimizer} (hempty : o.cache.entries = [])
    (requests : List (Query × Schema)) {q : Query} {s : Schema} {r : Optimized}
    (hr : ((o.after requests).optimize q s).1 = .ok r) :
    ∃ (p : Query) (s' : Schema) (new : Optimized), q.signature s = p.signature s' ∧
      p.optimize ⟨s', o.settings⟩ = .ok new ∧ r.query = new.query := by
  obtain ⟨n, ⟨kept, hmem, hanswer⟩ | hanswer⟩ :=
    (o.after requests).answer_cases s (validate_of_answer hr)
  · obtain ⟨p, -, -, hkey, hkept⟩ := kept_after hempty requests _ hmem
    rw [settings_after] at hkept
    obtain rfl := Except.ok.inj (hanswer.symm.trans hr)
    exact ⟨p.1, p.2, kept, hkey, hkept, rfl⟩
  · rw [hr, eq_comm, Failure.map_eq_ok_iff, settings_after] at hanswer
    obtain ⟨new, hnew, rfl⟩ := hanswer
    exact ⟨q, s, new, rfl, hnew, rfl⟩

/-- What the optimizer answers is a new result, marked as kept or not, if the earlier requests of
the same signature come to this result as well. -/
theorem answer_after {o : Optimizer} (hempty : o.cache.entries = [])
    (requests : List (Query × Schema)) {q : Query} {s : Schema} (hvalid : q.validate = .ok ())
    (hsame : ∀ p ∈ requests, q.signature s = p.1.signature p.2 →
      q.optimize ⟨s, o.settings⟩ = p.1.optimize ⟨p.2, o.settings⟩) :
    ∃ n cached, ((o.after requests).optimize q s).1 = (q.optimize ⟨s, o.settings⟩).map fun r =>
      advise o.settings.frequentQueryThreshold n { r with cached } := by
  obtain ⟨n, ⟨r, hmem, hanswer⟩ | hanswer⟩ := (o.after requests).answer_cases s hvalid
  · -- an earlier request `p` came to the kept result, which is what this one would come to
    obtain ⟨p, hp, -, hkey, hr⟩ := kept_after hempty requests _ hmem
    rw [settings_after] at hr hanswer
    rw [← hsame p hp hkey] at hr
    refine ⟨n, true, ?_⟩
    rw [hanswer, hr]
    rfl
  · rw [settings_after] at hanswer
    refine ⟨n, false, ?_⟩
    rw [hanswer]
    cases hr : q.optimize ⟨s, o.settings⟩ with
    | error f => rfl
    | ok r =>
        have hnew : r.cached = false := Query.cached_optimize hr
        simp only [Except.map, ← hnew]

/-- Requests of the same signature come to the same result, and the answer to a request is the new
result, whatever was asked before, if the schemas agree on what no signature says.  Only the mark of
a kept result and the advice for a query that is asked for often may differ. -/
theorem optimize_after_requests (o : Optimizer) (hempty : o.cache.entries = [])
    (requests : List (Query × Schema)) (q : Query) (s : Schema) (hvalid : q.validate = .ok ())
    (hfinite : q.isFinite = true)
    (hunsigned : ∀ p ∈ requests, q.signature s = p.1.signature p.2 → q.SameUnsigned s p.2) :
    (∀ p ∈ requests, q.signature s = p.1.signature p.2 →
        q.optimize ⟨s, o.settings⟩ = p.1.optimize ⟨p.2, o.settings⟩) ∧
      ∃ n cached, ((o.after requests).optimize q s).1 = (q.optimize ⟨s, o.settings⟩).map fun r =>
        advise o.settings.frequentQueryThreshold n { r with cached } := by
  have hsame : ∀ p ∈ requests, q.signature s = p.1.signature p.2 →
      q.optimize ⟨s, o.settings⟩ = p.1.optimize ⟨p.2, o.settings⟩ := fun p hp hsignature =>
    Query.optimize_eq_of_signature_eq hvalid hfinite hsignature (hunsigned p hp hsignature)
  exact ⟨hsame, answer_after hempty requests hvalid hsame⟩

/-- Customers and their orders. -/
def customerSchema (customers : Nat) : Schema where
  tables := [
    { name := "customers", rowCount := some customers,
      columns := [{ name := "id", type := .integer, primaryKey := true, nullable := false,
                    indexed := true }] },
    { name := "orders", rowCount := some 1000,
      columns := [{ name := "id", type := .integer },
                  { name := "customer_id", type := .integer }] }]

/-- Orders of known customers. -/
def knownOrders : Query where
  source := "orders"
  items := [.column ⟨"orders", "id", none⟩]
  filters := [⟨.column ⟨"orders", "customer_id", none⟩, .isIn,
    .subquery { source := "customers", items := [.column ⟨"customers", "id", none⟩] }⟩]

theorem eq_of_reads_knownOrders {t : String} (h : knownOrders.Reads t) :
    t = "orders" ∨ t = "customers" := by
  cases h with
  | table ht => exact .inl (List.mem_singleton.1 ht)
  | subquery hsub ht =>
      obtain rfl := List.mem_singleton.1 hsub
      cases ht with
      | table ht => exact .inr (List.mem_singleton.1 ht)
      | subquery hsub _ => cases hsub

/-- The schema with a table that is not read. -/
def loggedSchema : Schema where
  tables := (customerSchema 100).tables ++ [{ name := "logs" }]

theorem sameUnsigned_loggedSchema :
    knownOrders.SameUnsigned (customerSchema 100) loggedSchema := by
  refine ⟨fun t ht => ?_, fun t ht _ => ?_⟩
  · obtain rfl | rfl := eq_of_reads_knownOrders ht
    · decide
    · decide
  · obtain rfl | rfl := eq_of_reads_knownOrders ht
    · decide
    · decide

/-- A table that is not read plays no part. -/
theorem optimize_after_requests_knownOrders :
    knownOrders.validate = .ok () ∧ knownOrders.isFinite = true ∧
      knownOrders.SameUnsigned (customerSchema 100) loggedSchema ∧
      knownOrders.optimize ⟨customerSchema 100, (ofSettings {}).settings⟩ =
        knownOrders.optimize ⟨loggedSchema, (ofSettings {}).settings⟩ ∧
      ∃ n cached, (((ofSettings {}).after [(knownOrders, loggedSchema)]).optimize knownOrders
          (customerSchema 100)).1 =
        (knownOrders.optimize ⟨customerSchema 100, (ofSettings {}).settings⟩).map fun r =>
          advise (ofSettings {}).settings.frequentQueryThreshold n { r with cached } := by
  have htables : knownOrders.tables.map (customerSchema 100).tableSignature =
      knownOrders.tables.map loggedSchema.tableSignature := by decide
  have hsignature : knownOrders.signature (customerSchema 100) =
      knownOrders.signature loggedSchema := by
    rw [Query.signature, Query.signature, htables]
  have hrequests : ∀ p ∈ [(knownOrders, loggedSchema)],
      knownOrders.signature (customerSchema 100) = p.1.signature p.2 →
        knownOrders.SameUnsigned (customerSchema 100) p.2 :=
    List.forall_mem_singleton.2 fun _ => sameUnsigned_loggedSchema
  obtain ⟨hsame, hanswer⟩ := optimize_after_requests (ofSettings {}) rfl _ knownOrders
    (customerSchema 100) rfl (by decide) hrequests
  have hfresh := hsame (knownOrders, loggedSchema) List.mem_cons_self hsignature
  exact ⟨rfl, by decide, sameUnsigned_loggedSchema, hfresh, hanswer⟩

/-- The number of customers is read in the subquery alone: the result that was kept when there were
a hundred is given again where there are five thousand, and a new one is known to cost more. -/
theorem optimize_after_requests_stale :
    knownOrders.validate = .ok () ∧ knownOrders.isFinite = true ∧
      knownOrders.signature (customerSchema 5000) = knownOrders.signature (customerSchema 100) ∧
      ∃ r r', (((ofSettings {}).after [(knownOrders, customerSchema 100)]).optimize knownOrders
          (customerSchema 5000)).1 = .ok r ∧
        knownOrders.optimize ⟨customerSchema 5000, {}⟩ = .ok r' ∧ r.cached = true ∧
          r.cost < r'.cost := by
  have htables : knownOrders.tables.map (customerSchema 5000).tableSignature =
      knownOrders.tables.map (customerSchema 100).tableSignature := by decide
  have hrun : ((((ofSettings {}).after [(knownOrders, customerSchema 100)]).optimize knownOrders
      (customerSchema 5000)).1 >>= fun r =>
        (knownOrders.optimize ⟨customerSchema 5000, {}⟩).map fun r' =>
          r.cached && decide (r.cost < r'.cost)) = .ok true := by decide +kernel
  obtain ⟨r, hr, hnew⟩ := (Failure.bind_eq_ok_iff _ _ _).1 hrun
  obtain ⟨r', hr', hcheaper⟩ := (Failure.map_eq_ok_iff _ _ _).1 hnew
  obtain ⟨hcached, hcost⟩ := Bool.and_eq_true_iff.1 hcheaper
  refine ⟨rfl, by decide, ?_, r, r', hr, hr', hcached, of_decide_eq_true hcost⟩
  rw [Query.signature, Query.signature, htables]

end Optimizer
end AskSql
