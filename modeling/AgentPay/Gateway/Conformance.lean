import AgentPay.Gateway.Session

/-!
# The jobs follow the protocol

One specification for each program of the gateway against `custody`, from the quiet ones (locks,
audit, rate limit) up to the whole pipeline. The result is `job_follows`: whatever its operations
answer, a job performs only operations its session permits, and its response agrees with its
session.
-/

set_option autoImplicit false

namespace AgentPay.Gateway

open AgentPay.Library AgentPay.Policies

/-! ## Quiet operations -/

/-- The later session differs at most in the last clock reading, in newly drawn identifiers, in the
last window and row readings and in a submission that was committed. -/
structure Later (s s' : Session) : Prop where
  intent : s'.intent = s.intent
  drawn : ∀ n ∈ s.drawn, n ∈ s'.drawn
  lastGet : s'.lastGet = s.lastGet
  txn : s'.txn = s.txn
  policy : s'.policy = s.policy
  spent : s'.spent = s.spent
  opa : s'.opa = s.opa
  row : s'.row = s.row
  issued : s'.issued = s.issued
  submitted : s.submitted = true → s'.submitted = true
  charged : s'.charged = s.charged
  chargeReply : s'.chargeReply = s.chargeReply
  unknowns : s'.unknowns = s.unknowns
  queryReply : s'.queryReply = s.queryReply
  stale : s'.stale = s.stale

theorem Later.refl (s : Session) : Later s s :=
  ⟨rfl, fun _ h => h, rfl, rfl, rfl, rfl, rfl, rfl, rfl, id, rfl, rfl, rfl, rfl, rfl⟩

theorem Later.trans {s t u : Session} (h : Later s t) (h' : Later t u) : Later s u where
  intent := h'.intent.trans h.intent
  drawn n hn := h'.drawn n (h.drawn n hn)
  lastGet := h'.lastGet.trans h.lastGet
  txn := h'.txn.trans h.txn
  policy := h'.policy.trans h.policy
  spent := h'.spent.trans h.spent
  opa := h'.opa.trans h.opa
  row := h'.row.trans h.row
  issued := h'.issued.trans h.issued
  submitted hs := h'.submitted (h.submitted hs)
  charged := h'.charged.trans h.charged
  chargeReply := h'.chargeReply.trans h.chargeReply
  unknowns := h'.unknowns.trans h.unknowns
  queryReply := h'.queryReply.trans h.queryReply
  stale := h'.stale.trans h.stale

theorem Later.verdict {s s' : Session} (h : Later s s') : s'.verdict = s.verdict := by
  rw [Session.verdict, Session.verdict, h.opa]

/-- The operations permitted in every session that leave it as it is, up to `Later`. -/
def Quiet : Op → Prop
  | .now | .uuid4 | .sleep | .setNx .. | .deleteIfValue .. | .isRevoked _ | .zadd .. | .getMerchant _
  | .getAgent _ | .getTransaction _ | .commitToken .. | .commitUses .. | .auditHead
  | .insertAudit _ | .verifyApproval _ => True
  | .set _ (.idempotencyRecord _ _) _ | .set _ (.approvalRequest _) _ => True
  | _ => False

theorem guard_of_quiet {op : Op} (h : Quiet op) (s : Session) : s.guard op := by
  unfold Quiet at h
  split at h <;> trivial

theorem later_of_quiet {op : Op} (h : Quiet op) (s : Session) (answer : Except Exn op.Val) :
    Later s (s.next op answer) := by
  unfold Quiet at h
  split at h <;> first | exact h.elim | cases answer <;> first
    | exact Later.refl s
    | exact ⟨rfl, fun _ hn => hn, rfl, rfl, rfl, rfl, rfl, rfl, rfl, id, rfl, rfl, rfl, rfl, rfl⟩
    | exact ⟨rfl, fun _ hn => List.mem_cons_of_mem _ hn, rfl, rfl, rfl, rfl, rfl, rfl, rfl, id,
        rfl, rfl, rfl, rfl, rfl⟩

theorem follows_of_quiet {α : Type} {p : Py α} (hp : p.Only Quiet) (s : Session) :
    p.Follows custody s (fun _ s' => Later s s') :=
  Prog.Follows.of_only (I := fun _ => True) Later.refl (fun _ _ _ => Later.trans)
    (fun _ _ _ _ => trivial) (fun s _ _ h => ⟨guard_of_quiet h s, later_of_quiet h s⟩) hp trivial

/-- A quiet operation or a window reading, which is permitted until the policy answered. -/
def Early (op : Op) : Prop := Quiet op ∨ ∃ key since, op = .zcount key since

theorem guard_of_early {op : Op} (h : Early op) {s : Session} (hs : s.opa = none) : s.guard op := by
  rcases h with h | ⟨key, since, rfl⟩
  · exact guard_of_quiet h s
  · exact hs

theorem later_of_early {op : Op} (h : Early op) (s : Session) (answer : Except Exn op.Val) :
    Later s (s.next op answer) := by
  rcases h with h | ⟨key, since, rfl⟩
  · exact later_of_quiet h s answer
  · cases answer <;>
      exact ⟨rfl, fun _ hn => hn, rfl, rfl, rfl, rfl, rfl, rfl, rfl, id, rfl, rfl, rfl, rfl, rfl⟩

theorem follows_of_early {α : Type} {p : Py α} (hp : p.Only Early) {s : Session}
    (hs : s.opa = none) : p.Follows custody s (fun _ s' => Later s s') :=
  Prog.Follows.of_only (I := fun s => s.opa = none) Later.refl (fun _ _ _ => Later.trans)
    (fun _ _ hs h => h.opa.trans hs) (fun s _ hs h => ⟨guard_of_early h hs, later_of_early h s⟩)
    hp hs

/-- A quiet program in front of another one. -/
theorem follows_quiet_bind {α β : Type} {p : Py α} {f : α → Py β} {s : Session}
    {Q : β → Session → Prop} (hp : p.Only Quiet)
    (hf : ∀ a s', Later s s' → (f a).Follows custody s' (Prog.Returns Q)) :
    (p >>= f).Follows custody s (Prog.Returns Q) :=
  (follows_of_quiet hp s).bind hf fun _ _ _ => trivial

theorem only_acquire (name : String) (token ttl n : ℕ) : (acquire name token ttl n).Only Quiet :=
  acquire_only (fun _ _ _ => trivial) trivial name token ttl n

theorem only_release (name : String) (token : ℕ) : (release name token).Only Quiet :=
  Prog.Only.bind ((Prog.only_perform _ _).2 trivial) fun _ => trivial

theorem only_recordEvent (R : Runtime) (f : EventFields) : (recordEvent R f).Only Quiet := by
  refine (recordEvent_only R f).mono fun op h => ?_
  cases op <;> trivial

theorem only_recordEventSafe (R : Runtime) (f : EventFields) :
    (recordEventSafe R f).Only Quiet := by
  refine Prog.Only.recover (Prog.Only.bind (only_recordEvent R f) fun _ => trivial) fun e => ?_
  split <;> trivial

theorem only_zcountWindow (key : String) (window : ℕ) : (zcountWindow key window).Only Early :=
  Prog.Only.bind ((Prog.only_perform _ _).2 (.inl trivial)) fun _ =>
    (Prog.only_perform _ _).2 (.inr ⟨_, _, rfl⟩)

theorem only_zaddWindow (key : String) (window : ℕ) : (zaddWindow key window).Only Quiet :=
  Prog.Only.bind ((Prog.only_perform _ _).2 trivial) fun _ =>
    Prog.Only.bind ((Prog.only_perform _ _).2 trivial) fun _ => (Prog.only_perform _ _).2 trivial

theorem only_checkCeiling (key : String) (limit : ℤ) (scope : String) :
    (checkCeiling key limit scope).Only Early := by
  unfold checkCeiling
  split
  · refine Prog.Only.bind (only_zcountWindow _ _) fun n => ?_
    split <;> trivial
  · trivial

theorem only_recordRequest (key : String) (limit : ℤ) : (recordRequest key limit).Only Quiet := by
  unfold recordRequest
  split
  · exact Prog.Only.bind (only_zaddWindow _ _) fun _ => trivial
  · trivial

theorem only_enforceEdgeRateLimit (R : Runtime) (agentId delegationId : String) :
    (enforceEdgeRateLimit R agentId delegationId).Only Early := by
  have hrecord : ∀ key limit, (recordRequest key limit).Only Early :=
    fun key limit => (only_recordRequest key limit).mono fun _ => .inl
  unfold enforceEdgeRateLimit
  split
  · refine Prog.Only.recover ?_ fun e => by cases e <;> trivial
    refine Prog.Only.bind (only_checkCeiling _ _ _) fun _ => ?_
    refine Prog.Only.bind (only_checkCeiling _ _ _) fun _ => ?_
    exact Prog.Only.bind (hrecord _ _) fun _ => hrecord _ _
  · trivial

theorem only_blockedBeforePipeline (R : Runtime) (intent : PaymentIntent)
    (reasonCodes : List String) (message stage : String) :
    (blockedBeforePipeline R intent reasonCodes message stage).Only Quiet := by
  refine Prog.Only.bind ((Prog.only_perform _ _).2 trivial) fun id => ?_
  refine Prog.Only.bind (only_recordEventSafe _ _) fun _ => ?_
  exact Prog.Only.bind ((Prog.only_perform _ _).2 trivial) fun _ => trivial

theorem only_storeToken (txn : CanonicalTransaction) (token : IssuedToken) :
    (storeToken txn token).Only Quiet := by
  refine Prog.Only.bind ((Prog.only_perform _ _).2 trivial) fun row => ?_
  cases row with
  | none => trivial
  | some _ => exact (Prog.only_perform _ _).2 trivial

theorem only_replay (R : Runtime) (txn : CanonicalTransaction) (stored : DecisionResponse) :
    (replay R txn stored).Only Quiet :=
  Prog.Only.bind (only_recordEventSafe _ _) fun _ => trivial

theorem only_createRequest (txn : CanonicalTransaction) (reasonCodes : List String) :
    (createRequest txn reasonCodes).Only Quiet :=
  Prog.Only.bind ((Prog.only_perform _ _).2 trivial) fun _ => trivial

theorem only_concurrentRequest (R : Runtime) (id : ℕ) : (concurrentRequest R id).Only Quiet :=
  Prog.Only.bind ((Prog.only_perform _ _).2 trivial) fun _ => trivial

/-! ## State commits -/

theorem Warranted.later {s s' : Session} (h : Later s s') {id : ℕ} {target : PaymentState}
    (hw : Warranted s id target) : Warranted s' id target := by
  unfold Warranted OwnsIssued at hw ⊢
  rwa [h.issued, h.row, h.charged, h.chargeReply, h.unknowns, h.queryReply, h.stale]

/-- A warranted state commit is checked against the state just read, and leaves the session. -/
theorem follows_setState (R : Runtime) {id : ℕ} {target : PaymentState} (reference : Option Json)
    (detail : Option String) (audit : Bool) {s : Session} (hw : Warranted s id target) :
    (setState R id target reference detail audit).Follows custody s
      (Prog.Returns fun _ s' => Later s s' ∧ (target = .submitted → s'.submitted = true)) := by
  refine Prog.Follows.perform_returns trivial fun row => ?_
  have hread : Later s (s.next (.getTransaction id) (.ok row)) :=
    @later_of_quiet (.getTransaction id) trivial s _
  cases row with
  | none => trivial
  | some row =>
      simp only [assertTransition]
      by_cases ht : target ∈ validTransitions row.state
      · rw [if_pos ht]
        refine Prog.Follows.perform_returns ⟨⟨row.state, rfl, ht⟩, hw.later hread⟩ fun _ => ?_
        generalize hs₂ : custody.next _ _ _ = s₂
        have hcommit : Later s s₂ ∧ (target = .submitted → s₂.submitted = true) := by
          subst hs₂
          cases target <;> refine ⟨hread.trans ?_, ?_⟩ <;> first
            | exact Later.refl _
            | exact ⟨rfl, fun _ hn => hn, rfl, rfl, rfl, rfl, rfl, rfl, rfl, fun _ => rfl, rfl, rfl,
                rfl, rfl, rfl⟩
            | exact fun _ => rfl
            | exact fun h => PaymentState.noConfusion h
        cases audit with
        | false => exact hcommit
        | true =>
            refine follows_quiet_bind (only_recordEvent R _) fun _ s₃ h₃ => ?_
            exact ⟨hcommit.1.trans h₃, fun h => h₃.submitted (hcommit.2 h)⟩
      · rw [if_neg ht]
        trivial

/-! ## Authorization and submission -/

/-- The session works on a transaction with its row inserted. -/
structure Holds (txn : CanonicalTransaction) (row : Transaction) (s : Session) : Prop where
  hasTxn : s.txn = some txn
  hasRow : s.row = some row
  userId : row.userId = txn.userId
  idempotencyKey : row.idempotencyKey = txn.idempotencyKey
  id : row.paymentAuthorizationId = txn.paymentAuthorizationId

/-- The session holds an allowed row and the credential issued for it. -/
structure HoldsToken (txn : CanonicalTransaction) (row : Transaction)
    (claims : AuthorizationClaims) (s : Session) : Prop extends Holds txn row s where
  allow : row.decision = .allow
  issued : s.issued = some claims
  sub : claims.sub = row.userId
  claimsId : claims.paymentAuthorizationId = row.paymentAuthorizationId

/-- The session still has its transaction, its verdict and its row. -/
structure Kept (s s' : Session) : Prop where
  txn : s'.txn = s.txn
  opa : s'.opa = s.opa
  row : s'.row = s.row
  issued : s'.issued = s.issued

theorem Later.kept {s s' : Session} (h : Later s s') : Kept s s' :=
  ⟨h.txn, h.opa, h.row, h.issued⟩

theorem Kept.trans {s t u : Session} (h : Kept s t) (h' : Kept t u) : Kept s u :=
  ⟨h'.txn.trans h.txn, h'.opa.trans h.opa, h'.row.trans h.row, h'.issued.trans h.issued⟩

section Submission

variable {txn : CanonicalTransaction} {row : Transaction} {claims : AuthorizationClaims}
  {s s' : Session}

theorem Holds.kept (h : Holds txn row s) (hk : Kept s s') : Holds txn row s' :=
  ⟨hk.txn.trans h.hasTxn, hk.row.trans h.hasRow, h.userId, h.idempotencyKey, h.id⟩

theorem HoldsToken.kept (h : HoldsToken txn row claims s) (hk : Kept s s') :
    HoldsToken txn row claims s' :=
  ⟨h.toHolds.kept hk, h.allow, hk.issued.trans h.issued, h.sub, h.claimsId⟩

theorem HoldsToken.owns (h : HoldsToken txn row claims s) :
    OwnsIssued s txn.paymentAuthorizationId :=
  ⟨by rw [h.issued]; rfl, row, h.hasRow, h.id, h.allow⟩

theorem follows_authorize (R : Runtime) (policyVersion : String) (h : Holds txn row s)
    (hallow : row.decision = .allow) (hissued : s.issued = none) (hcharged : s.charged = false) :
    (authorize R txn policyVersion).Follows custody s
      (Prog.Returns fun token s' => HoldsToken txn row token.token s' ∧ s'.opa = s.opa ∧
        s'.charged = false) := by
  refine Prog.Follows.bind_returns (R := fun token s' => HoldsToken txn row token.token s' ∧
    s'.opa = s.opa ∧ s'.charged = false) ?_ fun token s₁ ⟨h₁, hopa₁, hcharged₁⟩ => ?_
  · refine Prog.Follows.perform_returns trivial fun time => ?_
    refine Prog.Follows.perform_returns trivial fun jti => ?_
    refine Prog.Follows.perform_returns ?_ fun _ => ?_
    · exact ⟨hissued, row, txn, h.hasRow, hallow, h.hasTxn, h.userId.symm, h.id.symm, rfl, rfl, rfl, rfl⟩
    · exact ⟨⟨⟨h.hasTxn, h.hasRow, h.userId, h.idempotencyKey, h.id⟩, hallow, rfl, h.userId.symm,
        h.id.symm⟩, rfl, hcharged⟩
  · refine follows_quiet_bind (only_storeToken txn token) fun _ s₂ h₂ => ?_
    have ht := h₁.kept h₂.kept
    have hw : Warranted s₂ txn.paymentAuthorizationId .authorized :=
      ⟨ht.owns, h₂.charged.trans hcharged₁⟩
    refine (follows_setState R none none true hw).bind_returns fun _ s₃ ⟨h₃, _⟩ => ?_
    exact ⟨ht.kept h₃.kept, (h₃.opa.trans h₂.opa).trans hopa₁,
      (h₃.charged.trans h₂.charged).trans hcharged₁⟩

theorem follows_postCharge (token : IssuedToken) (h : HoldsToken txn row token.token s)
    (hcharged : s.charged = false) (hsubmitted : s.submitted = true) :
    (postCharge txn token).Follows custody s
      (Prog.Returns fun answer s' => Kept s s' ∧ s'.charged = true ∧ ∀ reply, answer = .inl reply →
        s'.chargeReply = some (txn.paymentAuthorizationId, reply)) := by
  have hsend : Chargeable s token.token (chargeRequest txn) :=
    ⟨hcharged, hsubmitted, h.issued, row, txn, h.hasRow, h.hasTxn, rfl, h.sub, h.claimsId,
      h.idempotencyKey.symm, h.id.symm⟩
  -- both exits keep the session, up to the charge that was sent and the reply that came
  have hexit : ∀ (handler : Py (ProviderReply ⊕ String)) (s' : Session),
      ((∃ e, handler = Prog.throw e) ∨ ∃ detail, handler = pure (.inr detail)) → Kept s s' →
        s'.charged = true → handler.Follows custody s'
          (Prog.Returns fun answer s' => Kept s s' ∧ s'.charged = true ∧ ∀ reply,
            answer = .inl reply → s'.chargeReply = some (txn.paymentAuthorizationId, reply)) := by
    rintro handler s' (⟨e, rfl⟩ | ⟨detail, rfl⟩) hk hc
    · trivial
    · refine ⟨hk, hc, fun _ hr => ?_⟩
      cases hr
  rw [postCharge, Prog.follows_recover]
  refine Prog.Follows.perform hsend (fun _ => ?_) fun e => ?_
  · refine Prog.Follows.perform trivial (fun reply => ?_) fun e => ?_
    · exact ⟨⟨rfl, rfl, rfl, rfl⟩, rfl, fun _ hr => by cases hr; rfl⟩
    · refine hexit _ _ ?_ ⟨rfl, rfl, rfl, rfl⟩ rfl
      cases e.transportDetail? with
      | none => exact .inl ⟨e, rfl⟩
      | some detail => exact .inr ⟨detail, rfl⟩
  · refine hexit _ _ ?_ ⟨rfl, rfl, rfl, rfl⟩ rfl
    cases e.transportDetail? with
    | none => exact .inl ⟨e, rfl⟩
    | some detail => exact .inr ⟨detail, rfl⟩

theorem follows_settleReply (R : Runtime) (reply : ProviderReply)
    (h : HoldsToken txn row claims s) (hcharged : s.charged = true)
    (hreply : s.chargeReply = some (txn.paymentAuthorizationId, reply)) :
    (settleReply R txn reply).Follows custody s (Prog.Returns fun _ s' => Kept s s') := by
  have hfail : reply.RefusesCharge → Warranted s txn.paymentAuthorizationId .failed :=
    fun hr => .inr (.inl ⟨h.owns, hcharged, reply, hreply, hr⟩)
  unfold settleReply
  by_cases hcode : 400 ≤ reply.statusCode
  · rw [if_pos hcode]
    exact (follows_setState R _ _ true (hfail (.inl hcode))).bind_returns
      fun _ _ h₁ => h₁.1.kept
  · rw [if_neg hcode]
    cases hjson : reply.json with
    | none =>
        rw [parseBody, hjson]
        trivial
    | some payload =>
        rw [parseBody, hjson]
        cases payload with
        | obj fields =>
            have hstatus : reply.status? = some ((Json.field? "status" fields).getD .null) := by
              rw [ProviderReply.status?, hjson]
            change Prog.Follows custody (if _ then _ else _) s _
            cases hok : Json.isText "confirmed" ((Json.field? "status" fields).getD .null) with
            | true =>
                have hw : Warranted s txn.paymentAuthorizationId .confirmed := trivial
                exact (follows_setState R _ _ true hw).bind_returns fun _ _ h₁ => h₁.1.kept
            | false =>
                exact (follows_setState R _ _ true (hfail (.inr ⟨_, hstatus, hok⟩))).bind_returns
                  fun _ _ h₁ => h₁.1.kept
        | _ => trivial

theorem follows_submit (R : Runtime) (token : IssuedToken) (h : HoldsToken txn row token.token s)
    (hcharged : s.charged = false) :
    (submit R txn token).Follows custody s (Prog.Returns fun _ s' => Kept s s') := by
  refine Prog.Follows.perform_returns trivial fun stored => ?_
  have hread : Later s (s.next (.getTransaction txn.paymentAuthorizationId) (.ok stored)) :=
    @later_of_quiet (.getTransaction txn.paymentAuthorizationId) trivial s _
  cases stored with
  | none => trivial
  | some stored =>
      simp only
      split
      · exact hread.kept
      · refine follows_quiet_bind ((Prog.only_perform _ _).2 trivial) fun _ s₁ h₁ => ?_
        have hl := hread.trans h₁
        have ht := h.kept hl.kept
        have hc := hl.charged.trans hcharged
        have hw : Warranted s₁ txn.paymentAuthorizationId .submitted := ⟨ht.owns, hc⟩
        refine (follows_setState R none none true hw).bind_returns fun _ s₂ ⟨h₂, hsub⟩ => ?_
        have ht₂ := ht.kept h₂.kept
        refine (follows_postCharge token ht₂ (h₂.charged.trans hc) (hsub rfl)).bind_returns
          fun answer s₃ ⟨h₃, hc₃, hr₃⟩ => ?_
        have hk₃ := (hl.kept.trans h₂.kept).trans h₃
        have ht₃ := ht₂.kept h₃
        cases answer with
        | inl reply =>
            exact (follows_settleReply R reply ht₃ hc₃ (hr₃ reply rfl)).mono_returns
              fun _ _ h₄ => hk₃.trans h₄
        | inr failure =>
            have hw₃ : Warranted s₃ txn.paymentAuthorizationId .timeout := ⟨ht₃.owns, hc₃⟩
            refine (follows_setState R _ _ true hw₃).bind_returns fun _ s₄ ⟨h₄, _⟩ => ?_
            have hw₄ : Warranted s₄ txn.paymentAuthorizationId .unknown :=
              ⟨(ht₃.kept h₄.kept).owns, h₄.charged.trans hc₃⟩
            refine (follows_setState R _ _ true hw₄).bind_returns fun _ s₅ ⟨h₅, _⟩ => ?_
            exact (hk₃.trans h₄.kept).trans h₅.kept

end Submission

/-! ## The decision and what follows it -/

/-- The two responses agree on what was decided and for which payment. -/
structure SameAnswer (r r' : DecisionResponse) : Prop where
  decision : r'.decision = r.decision
  reasonCodes : r'.reasonCodes = r.reasonCodes
  id : r'.paymentAuthorizationId = r.paymentAuthorizationId
  replayed : r'.replayed = r.replayed

/-- What stage 6 leaves behind. -/
structure Finished (txn : CanonicalTransaction) (verdict : PDPResult) (response : DecisionResponse)
    (s : Session) (response' : DecisionResponse) (s' : Session) : Prop where
  answer : SameAnswer response response'
  sameTxn : s'.txn = s.txn
  opa : s'.opa = s.opa
  row : s'.row = s.row
  owns : verdict.decision = .allow → OwnsIssued s' txn.paymentAuthorizationId

section Finish

variable {txn : CanonicalTransaction} {row : Transaction} {verdict : PDPResult} {s : Session}

theorem follows_finish (R : Runtime) (response : DecisionResponse) (execute : Bool)
    (h : Holds txn row s) (hrow : row.decision = verdict.decision) (hissued : s.issued = none)
    (hcharged : s.charged = false) :
    (finish R txn verdict response execute).Follows custody s
      (Prog.Returns (Finished txn verdict response s)) := by
  unfold finish
  cases hd : verdict.decision with
  | block =>
      have hw : Warranted s txn.paymentAuthorizationId .failed :=
        .inl ⟨row, h.hasRow, h.id, hrow.trans hd⟩
      refine (follows_setState R _ _ false hw).bind_returns fun _ s₁ ⟨h₁, _⟩ => ?_
      exact ⟨⟨rfl, rfl, rfl, rfl⟩, h₁.txn, h₁.opa, h₁.row, fun ha => nomatch hd.symm.trans ha⟩
  | requireApproval =>
      refine follows_quiet_bind (only_createRequest txn _) fun _ s₁ h₁ => ?_
      exact ⟨⟨rfl, rfl, rfl, rfl⟩, h₁.txn, h₁.opa, h₁.row, fun ha => nomatch hd.symm.trans ha⟩
  | allow =>
      refine follows_quiet_bind (only_zaddWindow _ _) fun _ s₁ h₁ => ?_
      refine (follows_authorize R verdict.policyVersion (h.kept h₁.kept) (hrow.trans hd)
        (h₁.issued.trans hissued) (h₁.charged.trans hcharged)).bind_returns
        fun token s₂ ⟨h₂, hopa, hc₂⟩ => ?_
      have htxn : s₂.txn = s.txn := h₂.hasTxn.trans h.hasTxn.symm
      have hrow₂ : s₂.row = s.row := h₂.hasRow.trans h.hasRow.symm
      simp only
      split
      · refine (follows_submit R token h₂ hc₂).bind_returns fun provider s₃ h₃ => ?_
        exact ⟨⟨rfl, rfl, rfl, rfl⟩, h₃.txn.trans htxn, (h₃.opa.trans hopa).trans h₁.opa,
          h₃.row.trans hrow₂, fun _ => (h₂.kept h₃).owns⟩
      · exact ⟨⟨rfl, rfl, rfl, rfl⟩, htxn, hopa.trans h₁.opa, hrow₂, fun _ => h₂.owns⟩

/-- The answer agrees with the verdict and the row of the session. -/
def Concluded (r : DecisionResponse) (s : Session) : Prop := Answered (.ok (.decision r)) s

theorem Concluded.later {r : DecisionResponse} {s s' : Session} (h : Later s s')
    (hr : Concluded r s) : Concluded r s' := by
  intro hreplayed hallow
  obtain ⟨verdict, row, hv, hrow, hrest⟩ := hr hreplayed hallow
  exact ⟨verdict, row, h.verdict.trans hv, h.row.trans hrow, hrest⟩

theorem follows_rememberOutcome (R : Runtime) (response : DecisionResponse) (reserve : Bool)
    (htxn : s.txn = some txn)
    (howns : reserve = true → OwnsIssued s txn.paymentAuthorizationId) :
    (rememberOutcome R txn response reserve).Follows custody s
      (Prog.Returns fun _ s' => Later s s') := by
  refine Prog.Follows.perform_returns trivial fun _ => ?_
  split
  case isTrue h =>
      refine ⟨⟨howns h, txn, htxn, rfl, rfl⟩, fun answer => ?_⟩
      cases answer with
      | error e => trivial
      | ok _ => exact Later.refl s
  case isFalse _ => exact Later.refl s

theorem follows_concludeRequest (R : Runtime) (outcome : IdempotencyOutcome) (event : EventFields)
    {response : DecisionResponse} (htxn : s.txn = some txn)
    (howns : verdict.decision = .allow → OwnsIssued s txn.paymentAuthorizationId)
    (hr : Concluded response s) :
    (concludeRequest R txn outcome verdict event response).Follows custody s
      (Prog.Returns Concluded) := by
  refine follows_quiet_bind (only_recordEventSafe R event) fun recorded s₁ h₁ => ?_
  have hr₁ : Concluded
      { response with auditEventId := recorded.1, auditHash := recorded.2 } s₁ := hr.later h₁
  simp only
  split
  · refine (follows_rememberOutcome R _ _ (h₁.txn.trans htxn) fun ha => ?_).bind_returns
      fun _ s₂ h₂ => hr₁.later h₂
    have hown := howns (of_decide_eq_true ha)
    unfold OwnsIssued at hown ⊢
    rwa [h₁.issued, h₁.row]
  · exact hr₁

end Finish

/-! ## The pipeline -/

section Pipeline

variable {txn : CanonicalTransaction} {s : Session}

/-- Nothing was inserted, issued or charged yet. -/
structure Untouched (s : Session) : Prop where
  row : s.row = none
  issued : s.issued = none
  charged : s.charged = false

/-- The policy has not answered yet. -/
structure Unjudged (s : Session) : Prop extends Untouched s where
  opa : s.opa = none

theorem Unjudged.later {s s' : Session} (h : Later s s') (hs : Unjudged s) : Unjudged s' :=
  ⟨⟨h.row.trans hs.row, h.issued.trans hs.issued, h.charged.trans hs.charged⟩,
    h.opa.trans hs.opa⟩

/-- The duplicate check changes the last store reading only; without a conflict and without a
replay it found the fingerprint slot free. -/
theorem follows_checkDuplicate (hs : s.opa = none) :
    (checkDuplicate txn).Follows custody s (Prog.Returns fun outcome s' =>
      (∃ reading, s' = { s with lastGet := reading }) ∧
      (outcome.replayResponse = none → outcome.finding.idempotencyConflict = false →
        outcome.finding.fingerprintConflict = false →
        ∃ seen, s'.lastGet = some (fingerprintKey txn.fingerprint, seen) ∧
          slotTaken txn seen = false)) := by
  refine Prog.Follows.perform_returns hs fun raw => ?_
  cases raw with
  | some stored =>
      refine ⟨⟨_, rfl⟩, fun hreplay hidem _ => ?_⟩
      exfalso
      cases stored with
      | idempotencyRecord payloadHash response =>
          by_cases h : payloadHash = txn.payloadHash <;>
            simp [outcomeOfRecord, h] at hreplay hidem
      | _ => simp [outcomeOfRecord] at hidem
  | none =>
      refine Prog.Follows.perform_returns hs fun seen => ?_
      exact ⟨⟨_, rfl⟩, fun _ _ hfree => ⟨seen, rfl, hfree⟩⟩

theorem follows_loadContext (hs : Unjudged s) :
    (loadContext txn).Follows custody s (Prog.Returns fun ctx s' =>
      ContextRead s' txn ctx ∧ s'.txn = s.txn ∧ s'.lastGet = s.lastGet ∧ Unjudged s') := by
  refine Prog.Follows.perform_returns hs.opa fun policy => ?_
  refine Prog.Follows.perform_returns trivial fun merchant => ?_
  refine Prog.Follows.perform_returns trivial fun agent => ?_
  refine Prog.Follows.perform_returns trivial fun now => ?_
  refine Prog.Follows.perform_returns ⟨hs.opa, rfl⟩ fun spent => ?_
  refine Prog.Follows.bind_returns (R := fun count s' =>
    ContextRead s' txn (contextOf txn policy merchant agent spent count) ∧
      s'.txn = s.txn ∧ s'.lastGet = s.lastGet ∧ Unjudged s') ?_ fun _ _ h => h
  refine Prog.Follows.perform_returns trivial fun time => ?_
  refine ⟨hs.opa, fun answer => ?_⟩
  cases answer with
  | error e => trivial
  | ok count =>
      exact ⟨⟨policy, merchant, agent, _, _, rfl, rfl, rfl, rfl, rfl, rfl, rfl⟩, rfl, rfl,
        ⟨hs.row, hs.issued, hs.charged⟩, hs.opa⟩

/-- A finding that is present and valid is that of the presented token; the evaluation changes the
last clock reading only. -/
theorem follows_evaluateToken (token : Option ApprovalToken) :
    (evaluateToken token).Follows custody s (Prog.Returns fun finding s' =>
      (∃ t, s' = { s with lastNow := t }) ∧
      (finding.present = true → finding.valid = true → ∃ claims,
        token = some (.signed claims) ∧ findingOfClaims claims = some finding)) := by
  cases token with
  | none => exact ⟨⟨s.lastNow, rfl⟩, fun h => nomatch h⟩
  | some token =>
      cases token with
      | garbage => exact ⟨⟨s.lastNow, rfl⟩, fun _ h => nomatch h⟩
      | signed claims =>
          refine Prog.Follows.perform_returns trivial fun genuine => ?_
          refine Prog.Follows.perform_returns trivial fun now => ?_
          split
          · split
            · exact ⟨⟨now, rfl⟩, fun _ h => nomatch h⟩
            · cases hf : findingOfClaims claims with
              | none => trivial
              | some finding => exact ⟨⟨now, rfl⟩, fun _ _ => ⟨claims, rfl, hf⟩⟩
          · exact ⟨⟨now, rfl⟩, fun _ h => nomatch h⟩

/-- The stages after the decision, in a session that holds the policy's answer. -/
theorem follows_carryOut (R : Runtime) (execute : Bool) (outcome : IdempotencyOutcome)
    (analysis : AnalysisResult) (ctx : PolicyContext) {verdict : PDPResult} (hs : Untouched s)
    (htxn : s.txn = some txn) (hverdict : s.verdict = some verdict) :
    (carryOut R txn execute outcome analysis ctx verdict).Follows custody s
      (Prog.Returns Concluded) := by
  refine Prog.Follows.perform_returns trivial fun createdAt => ?_
  refine Prog.Follows.bind_returns (R := fun _ s' => s'.issued = none ∧ s'.charged = false ∧
    s'.opa = s.opa ∧ ∃ row, Holds txn row s' ∧ row.decision = verdict.decision) ?_
    fun _ s₁ ⟨hissued, hcharged, hopa, row, hrow, hdecision⟩ => ?_
  · refine Prog.Follows.perform_returns trivial fun now => ?_
    refine ⟨⟨hs.row, txn, verdict, _, htxn, hverdict, rfl⟩, fun inserted => ?_⟩
    cases inserted with
    | error e => trivial
    | ok _ => exact ⟨hs.issued, hs.charged, rfl, _, ⟨htxn, rfl, rfl, rfl, rfl⟩, rfl⟩
  · refine (follows_finish R _ execute hrow hdecision hissued hcharged).bind_returns
      fun response s₂ h₂ => ?_
    refine follows_concludeRequest R outcome _ (h₂.sameTxn.trans hrow.hasTxn) h₂.owns ?_
    intro _ hallow
    refine ⟨verdict, row, ?_, h₂.row.trans hrow.hasRow, ?_, h₂.answer.reasonCodes.symm, ?_⟩
    · rw [Session.verdict, h₂.opa, hopa]
      exact hverdict
    · rw [← hallow]
      exact h₂.answer.decision.symm
    · rw [hrow.id]
      exact h₂.answer.id.symm

/-- The stages after the duplicate check. -/
theorem follows_enforce (R : Runtime) (userId : String) (execute : Bool)
    {outcome : IdempotencyOutcome} {intent : PaymentIntent} (hs : Unjudged s)
    (hfirst : s.txn = none) (hcanonical : Canonical s txn intent)
    (houtcome : outcome.finding.idempotencyConflict = false →
      outcome.finding.fingerprintConflict = false →
      ∃ seen, s.lastGet = some (fingerprintKey txn.fingerprint, seen) ∧
        slotTaken txn seen = false) :
    (enforce R txn userId execute outcome).Follows custody s (Prog.Returns Concluded) := by
  refine Prog.Follows.perform_returns ⟨hs.opa, hfirst, intent, hcanonical⟩ fun analysis => ?_
  have hs₀ : Unjudged (custody.next s (.analyze txn) (.ok analysis)) :=
    ⟨⟨hs.row, hs.issued, hs.charged⟩, hs.opa⟩
  refine (@follows_loadContext txn _ hs₀).bind_returns
    fun ctx s₁ ⟨hctx, htxn₁, hget₁, hs₁⟩ => ?_
  refine (follows_evaluateToken txn.approvalToken).bind_returns
    fun approval s₂ ⟨⟨t₂, hs₂⟩, happroval⟩ => ?_
  subst hs₂
  refine Prog.Follows.perform_returns
    ⟨hs₁.opa, _, rfl, htxn₁, fun hi hf => ?_, hctx, happroval⟩ fun answer => ?_
  · obtain ⟨seen, hseen, hfree⟩ := houtcome hi hf
    exact ⟨seen, hget₁.trans hseen, hfree⟩
  · exact follows_carryOut R execute outcome analysis ctx ⟨hs₁.row, hs₁.issued, hs₁.charged⟩
      htxn₁ rfl

theorem follows_runPipeline (R : Runtime) (userId : String) (execute : Bool)
    {intent : PaymentIntent} (hs : Unjudged s) (hfirst : s.txn = none)
    (hcanonical : Canonical s txn intent) :
    (runPipeline R txn userId execute).Follows custody s (Prog.Returns Concluded) := by
  refine (follows_checkDuplicate hs.opa).bind_returns fun outcome s₁ ⟨⟨reading, hs₁⟩, houtcome⟩ => ?_
  subst hs₁
  cases hreplay : outcome.replayResponse with
  | some stored =>
      refine follows_quiet_bind (only_recordEventSafe R _) fun _ s₂ _ => ?_
      exact fun h => nomatch h
  | none =>
      have hcanonical' : Canonical { s with lastGet := reading } txn intent :=
        hcanonical.congr rfl fun _ h => h
      exact follows_enforce R userId execute ⟨⟨hs.row, hs.issued, hs.charged⟩, hs.opa⟩ hfirst
        hcanonical' (houtcome hreplay)

/-- A critical section around a program that concludes. -/
theorem follows_withLock (name : String) (ttl : ℕ) {body : Py DecisionResponse}
    (hbody : ∀ s', Later s s' → body.Follows custody s' (Prog.Returns Concluded)) :
    (withLock name ttl body).Follows custody s (Prog.Returns Concluded) := by
  refine follows_quiet_bind (p := perform .uuid4) ((Prog.only_perform _ _).2 trivial)
    fun token s₁ h₁ => ?_
  refine follows_quiet_bind (only_acquire name token ttl lockAttempts) fun _ s₂ h₂ => ?_
  rw [Prog.follows_ensure]
  refine (hbody s₂ (h₁.trans h₂)).mono fun r s₃ hr => ?_
  refine (follows_of_quiet (only_release name token) s₃).mono fun r' s₄ h₄ => ?_
  cases r' with
  | error e => trivial
  | ok _ =>
      cases r with
      | error e => trivial
      | ok response => exact hr.later h₄

theorem Canonical.later {s' : Session} {intent : PaymentIntent} (h : Later s s')
    (hc : Canonical s txn intent) : Canonical s' txn intent :=
  hc.congr h.intent h.drawn

theorem follows_guardedPipeline (R : Runtime) {intent : PaymentIntent} {identity : AgentIdentity}
    (execute : Bool) (hintent : s.intent = some intent) (huser : identity.userId = intent.userId)
    (hagent : identity.agentId = intent.agentId) (hs : Unjudged s) (hfirst : s.txn = none) :
    (guardedPipeline R intent identity execute).Follows custody s (Prog.Returns Concluded) := by
  refine Prog.Follows.perform_returns trivial fun id => ?_
  refine Prog.Follows.perform_returns trivial fun timestamp => ?_
  rw [Prog.follows_recover]
  generalize hs₁ : custody.next _ _ _ = s₁
  have hcanonical : Canonical s₁ (buildCanonical R intent identity id timestamp) intent := by
    subst hs₁
    exact ⟨hintent, huser, hagent, rfl, rfl, rfl, List.mem_cons_self⟩
  have hs' : Unjudged s₁ ∧ s₁.txn = none := by
    subst hs₁
    exact ⟨⟨⟨hs.row, hs.issued, hs.charged⟩, hs.opa⟩, hfirst⟩
  refine Prog.Follows.mono (follows_withLock _ _ fun s₂ h₂ => follows_withLock _ _ fun s₃ h₃ =>
    follows_runPipeline R identity.userId execute (hs'.1.later (h₂.trans h₃))
      ((h₂.trans h₃).txn.trans hs'.2) (hcanonical.later (h₂.trans h₃))) fun r s₄ hr => ?_
  cases r with
  | ok response => exact hr
  | error e =>
      cases e with
      | timeoutError =>
          refine follows_quiet_bind (p := perform .now) ((Prog.only_perform _ _).2 trivial)
            fun _ _ _ => ?_
          exact fun _ h => nomatch h
      | _ => trivial

end Pipeline

/-! ## The endpoints -/

section Endpoints

variable {s : Session}

theorem eq_of_bindingMismatches {identity : AgentIdentity} {intent : PaymentIntent}
    (h : bindingMismatches identity intent = []) :
    identity.userId = intent.userId ∧ identity.agentId = intent.agentId := by
  simp only [bindingMismatches, ite_not, List.append_eq_nil_iff, ite_eq_left_iff,
    List.cons_ne_nil, imp_false, not_not] at h
  exact ⟨h.1.2, h.1.1⟩

theorem only_assertNotRevoked (delegationId : String) :
    (assertNotRevoked delegationId).Only Quiet := by
  refine Prog.Only.bind (Prog.Only.recover ((Prog.only_perform _ _).2 trivial) fun e => ?_)
    fun revoked => ?_ <;> split <;> trivial

/-- An established identity is that of the intent. -/
theorem follows_authenticate (credential : Credential) (intent : PaymentIntent) :
    (authenticate credential intent).Follows custody s (Prog.Returns fun identity s' =>
      Later s s' ∧ identity.userId = intent.userId ∧ identity.agentId = intent.agentId) := by
  refine follows_quiet_bind (p := perform .now) ((Prog.only_perform _ _).2 trivial)
    fun now s₁ h₁ => ?_
  cases decodeDelegationToken now credential with
  | error e => trivial
  | ok identity =>
      change Prog.Follows custody (if _ then _ else _) s₁ _
      by_cases hm : bindingMismatches identity intent = []
      · rw [if_neg (not_not.2 hm)]
        split
        · trivial
        · refine follows_quiet_bind (only_assertNotRevoked _) fun _ s₂ h₂ => ?_
          exact ⟨h₁.trans h₂, eq_of_bindingMismatches hm⟩
      · rw [if_pos hm]
        trivial

theorem concluded_blocked (R : Runtime) (intent : PaymentIntent) (reasonCodes : List String)
    (message stage : String) :
    (blockedBeforePipeline R intent reasonCodes message stage).Follows custody s
      (Prog.Returns Concluded) := by
  refine follows_quiet_bind (p := perform .uuid4) ((Prog.only_perform _ _).2 trivial)
    fun id _ _ => ?_
  refine follows_quiet_bind (only_recordEventSafe R _) fun _ _ _ => ?_
  refine follows_quiet_bind (p := perform .now) ((Prog.only_perform _ _).2 trivial)
    fun _ _ _ => ?_
  exact fun _ h => nomatch h

theorem follows_createPaymentIntent (R : Runtime) {intent : PaymentIntent}
    (credential : Credential) (execute : Bool) (hs : Unjudged s) (hfirst : s.txn = none)
    (hintent : s.intent = some intent) :
    (createPaymentIntent R intent credential execute).Follows custody s
      (Prog.Returns Concluded) := by
  rw [createPaymentIntent, Prog.follows_bind, Prog.follows_attempt]
  refine (follows_authenticate credential intent).mono fun r s₁ hr => ?_
  cases r with
  | error e =>
      cases e with
      | identityError reasonCode message => exact concluded_blocked R intent _ _ _
      | _ => trivial
  | ok identity =>
      obtain ⟨h₁, huser, hagent⟩ := hr
      refine Prog.Follows.bind (follows_of_early (only_enforceEdgeRateLimit R _ _).attempt
        (h₁.opa.trans hs.opa)) (fun admitted s₂ h₂ => ?_) fun _ _ _ => trivial
      cases admitted with
      | ok _ =>
          exact follows_guardedPipeline R execute ((h₁.trans h₂).intent.trans hintent) huser hagent
            (hs.later (h₁.trans h₂)) ((h₁.trans h₂).txn.trans hfirst)
      | error e =>
          cases e with
          | rateLimitError scope limit => exact concluded_blocked R intent _ _ _
          | _ => trivial

theorem follows_loadRequest (id : ℕ) (hs : s.opa = none) :
    (loadRequest id).Follows custody s (Prog.Returns fun _ s' => s'.opa = none) := by
  refine Prog.Follows.perform_returns hs fun raw => ?_
  cases raw with
  | none => exact hs
  | some stored =>
      cases stored with
      | approvalRequest request => exact hs
      | _ => trivial

theorem follows_grantApproval (R : Runtime) (id : ℕ) (hs : s.opa = none) :
    (grantApproval R id).Follows custody s (Prog.Returns fun _ _ => True) := by
  refine Prog.Follows.bind_returns (R := fun _ s' => s'.opa = none) ?_ fun token s₁ hs₁ => ?_
  · refine (follows_loadRequest id hs).bind_returns fun request s₁ hs₁ => ?_
    cases request with
    | none => exact hs₁
    | some request =>
        refine follows_quiet_bind (p := perform _) ((Prog.only_perform _ _).2 trivial)
          fun _ s₂ h₂ => ?_
        refine Prog.Follows.perform_returns trivial fun _ => ?_
        refine Prog.Follows.perform_returns trivial fun _ => ?_
        split
        · trivial
        · exact Prog.Follows.perform_returns trivial fun _ => h₂.opa.trans hs₁
  · cases token with
    | none => trivial
    | some token =>
        refine (follows_loadRequest id hs₁).bind_returns fun request s₂ _ => ?_
        exact follows_quiet_bind (only_recordEventSafe R _) fun _ _ _ => trivial

/-! ### Reconciliation and expiry -/

theorem follows_queryCharge {id : ℕ} (h : id ∈ s.unknowns) :
    (queryCharge id).Follows custody s (Prog.Returns fun reply s' =>
      s'.unknowns = s.unknowns ∧ ∀ r, reply = some r → s'.queryReply = some (id, r)) := by
  have hexit : ∀ (e : Exn) (s' : Session), s'.unknowns = s.unknowns →
      (if e.isHttpError then pure none else Prog.throw e : Py (Option ProviderReply)).Follows
        custody s' (Prog.Returns fun reply s' =>
          s'.unknowns = s.unknowns ∧ ∀ r, reply = some r → s'.queryReply = some (id, r)) := by
    intro e s' hs'
    split
    · exact ⟨hs', fun _ hr => nomatch hr⟩
    · trivial
  rw [queryCharge, Prog.follows_recover]
  refine Prog.Follows.perform h (fun _ => ?_) fun e => hexit e _ rfl
  refine Prog.Follows.perform trivial (fun reply => ?_) fun e => hexit e _ rfl
  exact ⟨rfl, fun _ hr => by cases hr; rfl⟩

theorem follows_resolveReply (R : Runtime) {id : ℕ} {reply : ProviderReply} (counts : Resolved)
    (h : id ∈ s.unknowns) (hreply : s.queryReply = some (id, reply)) :
    (resolveReply R id reply counts).Follows custody s
      (Prog.Returns fun _ s' => s'.unknowns = s.unknowns) := by
  have hfail : reply.DeniesCharge → Warranted s id .failed :=
    fun hr => .inr (.inr ⟨h, reply, hreply, hr⟩)
  unfold resolveReply
  by_cases h404 : reply.statusCode = 404
  · rw [if_pos h404]
    exact (follows_setState R _ _ true (hfail (.inl h404))).bind_returns
      fun _ _ h₁ => h₁.1.unknowns
  · rw [if_neg h404]
    by_cases hcode : 400 ≤ reply.statusCode
    · rw [if_pos hcode]
      rfl
    · rw [if_neg hcode]
      cases hjson : reply.json with
      | none =>
          rw [parseBody, hjson]
          trivial
      | some payload =>
          rw [parseBody, hjson]
          cases payload with
          | obj fields =>
              have hstatus : reply.status? =
                  some ((Json.field? "status" fields).getD .null) := by
                rw [ProviderReply.status?, hjson]
              change Prog.Follows custody (if _ then _ else _) s _
              split
              · have hw : Warranted s id .confirmed := trivial
                exact (follows_setState R _ _ true hw).bind_returns fun _ _ h₁ => h₁.1.unknowns
              · cases hin : hashableIn ["failed", "declined"]
                  ((Json.field? "status" fields).getD .null) with
                | error e => trivial
                | ok refused =>
                    cases refused with
                    | false => rfl
                    | true =>
                        have hw := hfail (.inr ⟨by omega, _, hstatus, hin⟩)
                        exact (follows_setState R _ _ true hw).bind_returns
                          fun _ _ h₁ => h₁.1.unknowns
          | _ => trivial

theorem follows_reconcilePending (R : Runtime) (pending : List (ℕ × String)) (counts : Resolved)
    (h : ∀ p ∈ pending, p.1 ∈ s.unknowns) :
    (reconcilePending R pending counts).Follows custody s (Prog.Returns fun _ _ => True) := by
  induction pending generalizing s counts with
  | nil => trivial
  | cons p pending ih =>
      have htail : ∀ q ∈ pending, q.1 ∈ s.unknowns := fun q hq => h q (List.mem_cons_of_mem _ hq)
      refine (follows_queryCharge (h p List.mem_cons_self)).bind_returns
        fun reply s₁ ⟨h₁, hreply⟩ => ?_
      cases reply with
      | none => exact ih _ (by rwa [h₁])
      | some reply =>
          refine (follows_resolveReply R counts (by rw [h₁]; exact h p List.mem_cons_self)
            (hreply reply rfl)).bind_returns fun counts s₂ h₂ => ?_
          exact ih counts (by rwa [h₂, h₁])

theorem follows_reconcileUnknown (R : Runtime) (maxAgeMinutes : ℕ) :
    (reconcileUnknown R maxAgeMinutes).Follows custody s (Prog.Returns fun _ _ => True) := by
  refine Prog.Follows.perform_returns trivial fun now => ?_
  refine Prog.Follows.perform_returns trivial fun pending => ?_
  exact follows_reconcilePending R pending {} fun p hp => List.mem_map_of_mem hp

theorem follows_expireAll (R : Runtime) {now : Time} {all : List ℕ} (stale : List ℕ)
    (hs : s.stale = some (now, all)) (h : ∀ id ∈ stale, id ∈ all) :
    (expireAll R stale).Follows custody s (Prog.Returns fun _ _ => True) := by
  induction stale generalizing s with
  | nil => trivial
  | cons id stale ih =>
      have hw : Warranted s id .expired := ⟨now, all, hs, h id List.mem_cons_self⟩
      refine (follows_setState R _ _ true hw).bind_returns fun _ s₁ ⟨h₁, _⟩ => ?_
      exact ih (h₁.stale.trans hs) fun id' hid' => h id' (List.mem_cons_of_mem _ hid')

theorem follows_expireStale (R : Runtime) :
    (expireStaleAuthorizations R).Follows custody s (Prog.Returns fun _ _ => True) := by
  refine Prog.Follows.perform_returns trivial fun now => ?_
  refine Prog.Follows.perform_returns trivial fun stale => ?_
  refine (follows_expireAll R stale rfl fun _ h => h).bind_returns fun _ _ _ => trivial

end Endpoints

/-- The handler of unhandled exceptions around a program. -/
theorem follows_unhandled {α : Type} {toResponse : α → Response} {p : Py α} {s : Session}
    {Q : α → Session → Prop} (h : p.Follows custody s (Prog.Returns Q))
    (hQ : ∀ a s', Q a s' → Answered (.ok (toResponse a)) s') :
    (unhandled toResponse p).Follows custody s Answered := by
  rw [unhandled, Prog.follows_recover, Prog.follows_bind]
  refine h.mono fun r s' hr => ?_
  cases r with
  | ok a => exact hQ a s' hr
  | error e =>
      simp only
      split <;> trivial

/-- Every job follows the protocol from its initial session. -/
theorem job_follows (R : Runtime) (job : Job) :
    (job.start R).Follows custody job.session Answered := by
  cases job with
  | paymentIntent intent credential execute =>
      exact follows_unhandled
        (follows_createPaymentIntent R credential execute ⟨⟨rfl, rfl, rfl⟩, rfl⟩ rfl rfl)
        fun _ _ h => h
  | grantApproval id =>
      exact follows_unhandled (follows_grantApproval R id rfl) fun _ _ _ => trivial
  | reconcile =>
      refine follows_unhandled (Q := fun _ _ => True) ?_ fun _ _ _ => trivial
      refine (follows_reconcileUnknown R _).bind_returns fun _ _ _ => ?_
      exact (follows_expireStale R).bind_returns fun _ _ _ => trivial
  | reconcileUnknown =>
      exact follows_unhandled (follows_reconcileUnknown R _) fun _ _ _ => trivial
  | expireStaleAuthorizations =>
      exact follows_unhandled (follows_expireStale R) fun _ _ _ => trivial

end AgentPay.Gateway
