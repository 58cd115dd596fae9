import AgentPay.Properties.Reasons

/-!
# What the audit log and the responses say is true

In a run from an empty table and an empty log every audit event that reports a transition or a
verdict other than a block reports something that happened: the transition was accepted from the
state that was read and committed by the thread that reports it, a reported settlement was confirmed
by the provider, and the row of the reported payment carries the reported verdict and its reasons
(`audit_tells_truth`). A fresh response that names an audit event names one of the log, with its
hash and with the decision, the payment and the reasons of the response (`responses_on_record`).
-/

set_option autoImplicit false

namespace AgentPay.Properties

open AgentPay.Library AgentPay.Library.Machine AgentPay.Gateway

/-- What an audit event reports happened. -/
structure Truthful (c : Config) (event : AuditEvent) : Prop where
  transition : ∀ target, event.eventType = transitionType target → ∃ id tid,
    event.paymentAuthorizationId = some id ∧
      Transited (seenBy tid c.log) id target event.reasonCodes ∧
      (target = .confirmed → ∃ reply reference,
        (ChargeAnswered c id reply ∨ QueryAnswered c id reply) ∧ reply.Confirms reference)
  verdict : ∀ d, d ≠ .block → event.eventType = verdictType d → ∃ row ∈ c.world.transactions,
    event.paymentAuthorizationId = some row.paymentAuthorizationId ∧ row.decision = d ∧
      row.reasonCodes = event.reasonCodes

section Runs

variable {R : Runtime} {D : Discipline} {c : Config}

/-- A settlement that was committed was confirmed by the provider. -/
theorem confirmed_of_transited (hc : Reachable (machine R) D c) {tid id : ℕ}
    {reasonCodes : List String} (h : Transited (seenBy tid c.log) id .confirmed reasonCodes) :
    ∃ reply reference, (ChargeAnswered c id reply ∨ QueryAnswered c id reply) ∧
      reply.Confirms reference := by
  obtain ⟨row, reference, detail, -, -, hcommit, -⟩ := h
  obtain ⟨c₀, h₀⟩ := instant_of_seen hc hcommit
  obtain ⟨reply, hseen, hconfirms⟩ := h₀.grounded
  exact ⟨reply, reference, hseen.imp (fun h => ⟨tid, h₀.seen.mem h⟩) fun h => ⟨tid, h₀.seen.mem h⟩,
    hconfirms⟩

/-- A row that was inserted is in the table, with the verdict and the reasons it was inserted with.
-/
theorem row_of_inserted (hc : Reachable (machine R) D c) {tid : ℕ} {row : Transaction}
    (h : ⟨.insertTransaction row, .ok ()⟩ ∈ seenBy tid c.log) : ∃ r ∈ c.world.transactions,
      r.paymentAuthorizationId = row.paymentAuthorizationId ∧ r.decision = row.decision ∧
        r.reasonCodes = row.reasonCodes := by
  obtain ⟨r, hr, heq⟩ := List.mem_map.1 (row_entered hc h)
  have hfield : ∀ {α : Type} (field : Transaction → α), field r.asInserted = field row.asInserted :=
    fun field => congrArg field heq
  exact ⟨r, hr, hfield Transaction.paymentAuthorizationId, hfield Transaction.decision,
    hfield Transaction.reasonCodes⟩

/-- What an inserted event reports happened before. -/
theorem tells_of_seen (hc : Reachable (machine R) D c) {tid : ℕ} {event : AuditEvent}
    {answer : Except Exn Unit} (h : ⟨.insertAudit event, answer⟩ ∈ seenBy tid c.log) :
    Tells (seenBy tid c.log) event.eventType event.paymentAuthorizationId event.reasonCodes := by
  obtain ⟨c₀, h₀⟩ := instant_of_seen hc h
  exact Tells.extends h₀.grounded h₀.seen

/-- The row of a reported verdict. -/
theorem row_of_tells (hc : Reachable (machine R) D c) {tid : ℕ} {id? : Option ℕ} {d : Decision}
    {reasonCodes : List String} (h : Tells (seenBy tid c.log) (verdictType d) id? reasonCodes)
    (hd : d ≠ .block) : ∃ row ∈ c.world.transactions, id? = some row.paymentAuthorizationId ∧
      row.decision = d ∧ row.reasonCodes = reasonCodes := by
  obtain ⟨row, hinsert, hid, hdecision, hreasons⟩ := h.verdict d hd rfl
  obtain ⟨r, hr, hrid, hrdecision, hrreasons⟩ := row_of_inserted hc hinsert
  exact ⟨r, hr, by rw [hid, hrid], hrdecision.trans hdecision, hrreasons.trans hreasons⟩

/-- **What the audit log reports is true.** -/
theorem audit_tells_truth (hinit : ∀ w, D.initial w → w.audit = [])
    (hc : Reachable (machine R) D c) : ∀ event ∈ c.world.audit, Truthful c event := by
  intro event hevent
  obtain ⟨tid, answer, hseen⟩ := audit_register.origin hinit hc hevent
  have htells := tells_of_seen hc hseen
  refine ⟨fun target htype => ?_, fun d hd htype => ?_⟩
  · obtain ⟨id, hid, htransited⟩ := htells.transition target htype
    refine ⟨id, tid, hid, htransited, ?_⟩
    rintro rfl
    exact confirmed_of_transited hc htransited
  · rw [htype] at htells
    exact row_of_tells hc htells hd

/-- **A response that names an audit event names one of the log that says the same.** -/
theorem responses_on_record (hc : Reachable (machine R) D c) {tid : ℕ} {intent : PaymentIntent}
    {credential : Credential} {execute : Bool} {r : DecisionResponse} {eventId : ℕ}
    (ht : c.threads[tid]? =
      some ⟨.paymentIntent intent credential execute, .ret (.ok (.decision r))⟩)
    (hfresh : r.replayed = false) (hid : r.auditEventId = some eventId) :
    (∃ event ∈ c.world.audit, event.eventId = eventId ∧ r.auditHash = some event.eventHash ∧
      event.eventType = verdictType r.decision ∧ event.decision = some r.decision.value ∧
      event.paymentAuthorizationId = some r.paymentAuthorizationId ∧
      event.reasonCodes = r.reasonCodes) ∧
    (r.decision ≠ .block → ∃ row ∈ c.world.transactions,
      r.paymentAuthorizationId = row.paymentAuthorizationId ∧ row.decision = r.decision ∧
        row.reasonCodes = r.reasonCodes) := by
  have hrecorded : Recorded r (seenBy tid c.log) :=
    hc.ended (G := fun _ => Grounded) (job_grounded R) ht
  obtain ⟨event, hseen, heventId, hhash, htype, hdecision, hpayment, hreasons⟩ :=
    hrecorded.event hfresh eventId hid
  refine ⟨⟨event, audit_register.entered hc hseen, heventId, hhash, htype, hdecision, hpayment,
    hreasons⟩, fun hd => ?_⟩
  have htells := tells_of_seen hc hseen
  rw [htype, hpayment, hreasons] at htells
  obtain ⟨row, hrow, hrowId, hrest⟩ := row_of_tells hc htells hd
  exact ⟨row, hrow, Option.some.inj hrowId, hrest⟩

end Runs

/-! ## A run -/

/-- A payment that is executed and confirmed. -/
def paid : List (Label Job Env Outcome) :=
  [Scenario.request Scenario.firstOrder true] ++
    steps 0 (Scenario.toInsertion ++ oks 29 ++ [Scenario.confirmed] ++ oks 20)

theorem audit_tells_truth_paid : ∃ c : Config,
    Reachable (machine Scenario.runtime) fromScratch c ∧
    c.world.audit.map AuditEvent.eventType =
      ["decision.allow", "payment.confirmed", "payment.submitted", "payment.authorized"] ∧
    ∀ event ∈ c.world.audit, Truthful c event := by
  have hrun : executes Scenario.runtime {} (Scenario.world (Scenario.policy "u" 200 10)) paid
      (fun c => c.world.audit.map AuditEvent.eventType =
        ["decision.allow", "payment.confirmed", "payment.submitted", "payment.authorized"]) =
      true := by decide +kernel
  obtain ⟨c, hc, htypes⟩ := exists_reachable_checked fromScratch_checked (untouched_world _) hrun
  exact ⟨c, hc, htypes, audit_tells_truth (fun _ (h : Untouched _) => h.audit) hc⟩

/-- A payment request that was answered, and its answer. -/
def answeredBy (tid : ℕ) (c : Config) : Option (PaymentIntent × DecisionResponse) :=
  match (c.threads[tid]? : Option (Thread Job Op Op.Val Exn Response)) with
  | some ⟨.paymentIntent intent _ _, .ret (.ok (.decision r))⟩ => some (intent, r)
  | _ => none

theorem answeredBy_eq_some {c : Config} {tid : ℕ} {intent : PaymentIntent} {r : DecisionResponse}
    (h : answeredBy tid c = some (intent, r)) : ∃ credential execute, c.threads[tid]? =
      some ⟨.paymentIntent intent credential execute, .ret (.ok (.decision r))⟩ := by
  unfold answeredBy at h
  split at h
  · rename_i intent' credential execute r' ht
    cases h
    exact ⟨credential, execute, ht⟩
  · cases h

theorem responses_on_record_allowed : ∃ (c : Config) (intent : PaymentIntent)
    (r : DecisionResponse) (eventId : ℕ), answeredBy 0 c = some (intent, r) ∧ r.decision = .allow ∧
    r.auditEventId = some eventId ∧
    (∃ event ∈ c.world.audit, event.eventId = eventId ∧ r.auditHash = some event.eventHash ∧
      event.eventType = verdictType r.decision ∧ event.decision = some r.decision.value ∧
      event.paymentAuthorizationId = some r.paymentAuthorizationId ∧
      event.reasonCodes = r.reasonCodes) ∧
    (r.decision ≠ .block → ∃ row ∈ c.world.transactions,
      r.paymentAuthorizationId = row.paymentAuthorizationId ∧ row.decision = r.decision ∧
        row.reasonCodes = r.reasonCodes) := by
  have hrun : executes Scenario.runtime {} (Scenario.world (Scenario.policy "u" 200 10))
      ([Scenario.request Scenario.firstOrder false] ++ steps 0 (Scenario.toInsertion ++ oks 28))
      (fun c => ((answeredBy 0 c).any fun a =>
        decide (a.2.decision = .allow) && !a.2.replayed && a.2.auditEventId.isSome) = true) =
      true := by
    decide +kernel
  obtain ⟨c, hc, hanswered⟩ := exists_reachable hrun
  obtain ⟨⟨intent, r⟩, hr, hcheck⟩ := Option.any_eq_true _ _ |>.1 hanswered
  simp only [Bool.and_eq_true, decide_eq_true_eq, Bool.not_eq_true'] at hcheck
  obtain ⟨⟨hallow, hfresh⟩, hid⟩ := hcheck
  obtain ⟨eventId, hid⟩ := Option.isSome_iff_exists.1 hid
  obtain ⟨credential, execute, ht⟩ := answeredBy_eq_some hr
  exact ⟨c, intent, r, eventId, hr, hallow, hid, responses_on_record hc ht hfresh hid⟩

end AgentPay.Properties
