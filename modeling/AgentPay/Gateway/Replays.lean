import AgentPay.Gateway.Grounds

/-!
# What a replay does

A request that is answered with a replay has performed nothing but readings, windows, locks and
audit appends. A request that is answered on a verdict of its own has stored no answer but the one
it gives; an answer that was stored and not given is one whose request then failed to release a lock
(`job_repeats`).
-/

set_option autoImplicit false

namespace AgentPay.Gateway

open AgentPay.Library AgentPay.Library.Prog

/-- An operation that reads, counts, locks, or appends to the audit log. -/
def Passive : Op → Prop
  | .auditHead | .insertAudit _ => True
  | op => Calm op

/-- An operation that stores no answer. -/
def Unstoring : Op → Prop
  | .set key (.idempotencyRecord ..) _ => CommonKey key
  | _ => True

/-- Every answer that was stored is this one. -/
def Stores (r : DecisionResponse) (s : Memory) : Prop :=
  ∀ key payloadHash response ex answer,
    ⟨.set key (.idempotencyRecord payloadHash response) ex, answer⟩ ∈ s → ¬ CommonKey key →
      response = r

/-- A replay has done nothing, and another answer is the one that was stored. -/
structure Repeats (r : DecisionResponse) (s : Memory) : Prop where
  passive : r.replayed = true → ∀ e ∈ s, Passive e.1
  stored : r.replayed = false → r.reasonCodes ≠ ["CONCURRENT_REQUEST_IN_FLIGHT"] → Stores r s

theorem passive_of_calm {op : Op} (h : Calm op) : Passive op := by
  cases op <;> first | exact h.elim | exact h

theorem unstoring_of_passive {op : Op} (h : Passive op) : Unstoring op := by
  cases op <;> first | exact h.elim | trivial

theorem unstoring_of_aside {op : Op} (h : Aside op) : Unstoring op := by
  cases op
  case set key value ex => cases value <;> first | exact h | trivial
  all_goals trivial

section Memories

variable {s s' : Memory} {r : DecisionResponse}

theorem Stores.extends (hs : Stores r s) (h : Extends Unstoring s s') : Stores r s' := by
  intro key payloadHash response ex answer hmem hkey
  rcases h.mem_cases hmem with hop | hmem
  · exact absurd hop hkey
  · exact hs _ _ _ _ _ hmem hkey

/-- Nothing was stored by operations that store nothing. -/
theorem stores_of_passive (h : ∀ e ∈ s, Passive e.1) : Stores r s :=
  fun _ _ _ _ _ hmem _ => (h _ hmem).elim

/-- What a memory repeats it repeats after locks are released. -/
theorem Repeats.extends (hr : Repeats r s) (h : Extends Calm s s') : Repeats r s' where
  passive hreplayed := h.forall_mem (hr.passive hreplayed) fun _ => passive_of_calm
  stored hfresh hcodes := (hr.stored hfresh hcodes).extends
    (h.mono fun _ h => unstoring_of_passive (passive_of_calm h))

end Memories

/-- The protocol that remembers everything and permits everything. -/
abbrev free : Protocol Op Op.Val Exn Memory := watching fun _ _ => True

section Programs

variable {R : Runtime} {intent : PaymentIntent} {txn : CanonicalTransaction} {s : Memory}

/-! ## What stores nothing -/

theorem unstoring_recordEventSafe (R : Runtime) (f : EventFields) :
    (recordEventSafe R f).Only Unstoring :=
  (aside_recordEventSafe R f).mono fun _ => unstoring_of_aside

theorem passive_recordEventSafe (R : Runtime) (f : EventFields) :
    (recordEventSafe R f).Only Passive := by
  refine Only.recover (Only.bind ((recordEvent_only R f).mono fun op h => ?_) fun _ => trivial)
    fun e => ?_
  · cases op <;> first | exact h.elim | trivial
  · split <;> trivial

theorem unstoring_authorize (policyVersion : String) :
    (authorize R txn policyVersion).Only Unstoring := by
  refine Only.bind ?_ fun token => ?_
  · refine Only.bind ((only_perform _ _).2 trivial) fun time => ?_
    refine Only.bind ((only_perform _ _).2 trivial) fun jti => ?_
    exact Only.bind ((only_perform _ _).2 trivial) fun _ => trivial
  · refine Only.bind ((aside_storeToken txn token).mono fun _ => unstoring_of_aside) fun _ => ?_
    exact Only.bind ((aside_setState R _ _ _ _ _).mono fun _ => unstoring_of_aside) fun _ => trivial

theorem unstoring_submit (token : IssuedToken) : (submit R txn token).Only Unstoring := by
  refine (charges_submit R txn token).mono fun op h => ?_
  rcases h with h | ⟨token, body, rfl⟩
  · exact unstoring_of_aside h
  · trivial

theorem unstoring_finish (verdict : PDPResult) (response : DecisionResponse) (execute : Bool) :
    (finish R txn verdict response execute).Only Unstoring := by
  unfold finish
  cases verdict.decision with
  | block =>
      exact Only.bind ((aside_setState R _ _ _ _ _).mono fun _ => unstoring_of_aside)
        fun _ => trivial
  | requireApproval =>
      exact Only.bind ((aside_createRequest txn _).mono fun _ => unstoring_of_aside)
        fun _ => trivial
  | allow =>
      refine Only.bind ((aside_recordVelocity txn).mono fun _ => unstoring_of_aside) fun _ => ?_
      refine Only.bind (unstoring_authorize _) fun token => ?_
      simp only
      split
      · exact Only.bind (unstoring_submit token) fun _ => trivial
      · trivial

/-! ## The pipeline -/

/-- Stage 6 replays nothing. -/
theorem fresh_finish (verdict : PDPResult) (response : DecisionResponse) (execute : Bool)
    (s : Memory) : (finish R txn verdict response execute).Follows free s
      (Returns fun r _ => r.replayed = response.replayed) := by
  unfold finish
  cases verdict.decision with
  | block => exact (keeps_all _).before fun _ _ _ => rfl
  | requireApproval => exact (keeps_all _).before fun _ _ _ => rfl
  | allow =>
      refine (keeps_all _).before fun _ _ _ => (keeps_all _).before fun token s₁ _ => ?_
      simp only
      split
      · exact (keeps_all _).before fun _ _ _ => rfl
      · rfl

/-- An answer that is remembered is the one that is stored. -/
theorem stores_rememberOutcome {r : DecisionResponse} (reserve : Bool) (hs : Stores r s) :
    (rememberOutcome R txn r reserve).Follows free s (Returns fun _ s' => Stores r s') := by
  refine Follows.perform_returns (P := free) trivial fun _ => ?_
  have hstored : Stores r (⟨.set (idemKey txn.userId txn.idempotencyKey)
      (.idempotencyRecord txn.payloadHash r) R.settings.idempotencyTtlSeconds, .ok ()⟩ :: s) := by
    intro key payloadHash response ex answer hmem hkey
    rcases List.mem_cons.1 hmem with heq | hmem
    · cases heq
      rfl
    · exact hs _ _ _ _ _ hmem hkey
  split
  · refine ⟨trivial, fun answer => ?_⟩
    cases answer with
    | error e => trivial
    | ok _ =>
        refine hstored.extends (Extends.cons ?_ _ _)
        trivial
  · exact hstored

/-- The answer that is given is the one that is stored. -/
theorem stores_concludeRequest {outcome : IdempotencyOutcome} {verdict : PDPResult}
    {event : EventFields} {response : DecisionResponse} (hfresh : response.replayed = false)
    (hs : ∀ r, Stores r s) :
    (concludeRequest R txn outcome verdict event response).Follows free s
      (Returns fun r s' => r.replayed = false ∧ Stores r s') := by
  refine (unstoring_recordEventSafe R event).extends_bind (fun _ _ _ => trivial)
    fun recorded s₁ h₁ => ?_
  simp only
  split
  · exact (stores_rememberOutcome _ ((hs _).extends h₁)).bind_returns fun _ _ h => ⟨hfresh, h⟩
  · exact ⟨hfresh, (hs _).extends h₁⟩

theorem stores_carryOut (execute : Bool) (outcome : IdempotencyOutcome) (analysis : AnalysisResult)
    (ctx : PolicyContext) (verdict : PDPResult) (hs : ∀ r, Stores r s) :
    (carryOut R txn execute outcome analysis ctx verdict).Follows free s
      (Returns fun r s' => r.replayed = false ∧ Stores r s') := by
  have hfree : ∀ (s : Memory) op, Unstoring op → True := fun _ _ _ => trivial
  have hinsert : (persistTransaction txn verdict (assess R txn ctx analysis)).Only Unstoring :=
    Only.bind ((only_perform _ _).2 trivial) fun _ => (only_perform _ _).2 trivial
  refine Follows.perform_seen (A := Unstoring) trivial hfree fun createdAt s₁ h₁ _ => ?_
  refine hinsert.extends_bind hfree fun _ s₂ h₂ => ?_
  have hfinish := @fresh_finish R txn verdict
    (openResponse txn verdict (assess R txn ctx analysis) createdAt) execute s₂
  refine (hfinish.and ((unstoring_finish verdict _ execute).extends hfree s₂)).bind
    (fun response s₃ h => ?_) fun _ _ _ => trivial
  exact stores_concludeRequest h.1 fun r => (hs r).extends ((h₁.trans h₂).trans h.2)

theorem stores_enforce (userId : String) (execute : Bool) (outcome : IdempotencyOutcome)
    (hs : ∀ r, Stores r s) : (enforce R txn userId execute outcome).Follows free s
      (Returns fun r s' => r.replayed = false ∧ Stores r s') := by
  have hfree : ∀ (s : Memory) op, Unstoring op → True := fun _ _ _ => trivial
  have hcalm : ∀ op, Calm op → Unstoring op := fun _ h => unstoring_of_passive (passive_of_calm h)
  refine Follows.perform_seen (A := Unstoring) trivial hfree fun analysis s₁ h₁ _ => ?_
  refine ((calm_loadContext txn).mono hcalm).extends_bind hfree fun ctx s₂ h₂ => ?_
  refine ((calm_evaluateToken txn.approvalToken).mono hcalm).extends_bind hfree
    fun approval s₃ h₃ => ?_
  refine Follows.perform_seen (A := Unstoring) trivial hfree fun answer s₄ h₄ _ => ?_
  exact stores_carryOut execute outcome analysis ctx _ fun r =>
    (hs r).extends (((h₁.trans h₂).trans h₃).trans h₄)

/-- The pipeline replays, or gives an answer of its own. -/
theorem repeats_runPipeline (userId : String) (execute : Bool) (hs : ∀ e ∈ s, Passive e.1) :
    (runPipeline R txn userId execute).Follows free s (Returns Repeats) := by
  have hfree : ∀ (s : Memory) op, Passive op → True := fun _ _ _ => trivial
  refine ((calm_checkDuplicate txn).mono fun _ => passive_of_calm).extends_bind hfree
    fun outcome s₁ h₁ => ?_
  have hs₁ := h₁.forall_mem hs fun _ h => h
  cases outcome.replayResponse with
  | none =>
      -- nothing has been stored before the verdict
      simp only
      refine (stores_enforce userId execute outcome fun r => stores_of_passive hs₁).mono
        fun r s₂ h => ?_
      cases r with
      | error e => trivial
      | ok r =>
          refine ⟨fun hreplayed => ?_, fun _ _ => h.2⟩
          cases h.1.symm.trans hreplayed
  | some stored =>
      simp only
      refine (passive_recordEventSafe R _).extends_bind hfree fun _ s₂ h₂ => ?_
      exact ⟨fun _ => h₂.forall_mem hs₁ fun _ h => h, fun h => (nomatch h)⟩

/-! ## The request -/

/-- What a block repeats is repeated after its lock is released. -/
theorem repeats_withLock (name : String) (ttl : ℕ) {body : Py DecisionResponse}
    (hs : ∀ e ∈ s, Passive e.1)
    (hbody : ∀ s', (∀ e ∈ s', Passive e.1) → body.Follows free s' (Returns Repeats)) :
    (withLock name ttl body).Follows free s (Returns Repeats) := by
  have hfree : ∀ (s : Memory) op, Calm op → True := fun _ _ _ => trivial
  refine Follows.perform_seen (A := Calm) trivial hfree fun token s₁ h₁ _ => ?_
  refine (calm_acquire name token ttl _).extends_bind hfree fun _ s₂ h₂ => ?_
  have hs₂ := (h₁.trans h₂).forall_mem hs fun _ => passive_of_calm
  -- the lock is released whether the block returned or raised
  refine (follows_ensure _ _ _ _).2 ((hbody s₂ hs₂).mono fun r s₃ hr => ?_)
  refine ((calm_release name token).extends hfree s₃).mono fun r' s₄ h₄ => ?_
  cases r' with
  | error e => trivial
  | ok _ =>
      cases r with
      | error e => trivial
      | ok r => exact Repeats.extends hr h₄

theorem repeats_blockedBeforePipeline (reasonCodes : List String) (message stage : String)
    (hs : ∀ e ∈ s, Passive e.1) :
    (blockedBeforePipeline R intent reasonCodes message stage).Follows free s
      (Returns Repeats) := by
  have hfree : ∀ (s : Memory) op, Passive op → True := fun _ _ _ => trivial
  refine Follows.perform_seen (A := Passive) trivial hfree fun id s₁ h₁ _ => ?_
  refine (passive_recordEventSafe R _).extends_bind hfree fun _ s₂ h₂ => ?_
  refine Follows.perform_seen (A := Passive) trivial hfree fun createdAt s₃ h₃ _ => ?_
  have hs₃ := ((h₁.trans h₂).trans h₃).forall_mem hs fun _ h => h
  exact ⟨fun _ => hs₃, fun _ _ => stores_of_passive hs₃⟩

theorem repeats_guardedPipeline (identity : AgentIdentity) (execute : Bool)
    (hs : ∀ e ∈ s, Passive e.1) :
    (guardedPipeline R intent identity execute).Follows free s (Returns Repeats) := by
  have hfree : ∀ (s : Memory) op, Passive op → True := fun _ _ _ => trivial
  refine Follows.perform_seen (A := Passive) trivial hfree fun id s₁ h₁ _ => ?_
  refine Follows.perform_seen (A := Passive) trivial hfree fun timestamp s₂ h₂ _ => ?_
  have hs₂ := (h₁.trans h₂).forall_mem hs fun _ h => h
  refine (follows_recover _ _ _ _).2 ?_
  refine (repeats_withLock _ _ hs₂ fun s₃ hs₃ => repeats_withLock _ _ hs₃ fun s₄ hs₄ =>
    repeats_runPipeline identity.userId execute hs₄).mono fun r s₅ hr => ?_
  cases r with
  | ok r => exact hr
  | error e =>
      cases e with
      | timeoutError =>
          -- the answer for requests in flight, whatever was stored before a lock was lost
          refine Follows.perform_seen (A := Passive) trivial hfree fun createdAt s₆ h₆ _ => ?_
          exact ⟨fun h => (nomatch h), fun _ hcodes => absurd rfl hcodes⟩
      | _ => trivial

theorem repeats_admission (identity : AgentIdentity) (execute : Bool) (hs : ∀ e ∈ s, Passive e.1) :
    (admission R intent identity execute).Follows free s (Returns Repeats) := by
  refine (calm_enforceEdgeRateLimit R _ _).attempt.extends_bind (fun _ _ _ => trivial)
    fun admitted s₁ h₁ => ?_
  have hs₁ := h₁.forall_mem hs fun _ => passive_of_calm
  cases admitted with
  | ok _ => exact repeats_guardedPipeline identity execute hs₁
  | error e =>
      cases e with
      | rateLimitError scope limit => exact repeats_blockedBeforePipeline _ _ _ hs₁
      | _ => trivial

theorem repeats_createPaymentIntent (credential : Credential) (execute : Bool)
    (hs : ∀ e ∈ s, Passive e.1) :
    (createPaymentIntent R intent credential execute).Follows free s (Returns Repeats) := by
  refine (calm_authenticate credential intent).attempt.extends_bind (fun _ _ _ => trivial)
    fun authenticated s₁ h₁ => ?_
  have hs₁ := h₁.forall_mem hs fun _ => passive_of_calm
  cases authenticated with
  | ok identity => exact repeats_admission identity execute hs₁
  | error e =>
      cases e with
      | identityError reasonCode message => exact repeats_blockedBeforePipeline _ _ _ hs₁
      | _ => trivial

end Programs

/-! ## The jobs -/

/-- What a request is answered with repeats. -/
def Repeated : Job → Except Exn Response → Memory → Prop
  | .paymentIntent .., .ok (.decision r), s => Repeats r s
  | _, _, _ => True

/-- **A replay has done nothing, and another answer is the one that was stored.** -/
theorem job_repeats (R : Runtime) (job : Job) :
    (job.start R).Follows free [] (Repeated job) := by
  cases job with
  | paymentIntent intent credential execute =>
      refine (follows_recover _ _ _ _).2 ((follows_bind _ _ _ _).2 ?_)
      have hnothing : ∀ e ∈ ([] : Memory), Passive e.1 := fun e he => absurd he List.not_mem_nil
      refine (repeats_createPaymentIntent credential execute hnothing).mono fun r s hr => ?_
      cases r with
      | ok r => exact hr
      | error e =>
          change Follows _ (if _ then _ else _) _ _
          split <;> trivial
  | _ => exact keeps_all _ []

end AgentPay.Gateway
