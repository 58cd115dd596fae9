import AgentPay.Gateway.Answers
import AgentPay.Gateway.Records
import AgentPay.Library.Keeping

/-!
# On what grounds a job acts and reports

`Grounded` asks for a ground in what the job has seen. The columns of a credential are written after
the credential was signed. A payment is committed as `CONFIRMED` only after a reply that says so,
with the reference of that reply, and a reply is awaited only after its request was sent. A sweep
lists the payments that are stale at an instant it read. An approval request is stored for a row
that was parked, or after it was read, and an approval is signed for a request that was read. An
answer that is remembered carries the row that was inserted. An audit event that reports a
transition or a verdict that is not a block is inserted only after the transition was committed, or
after the row with that verdict was inserted. Every job keeps to it, and a response carries the row
the job inserted and names an audit event the job inserted, if it names one (`job_grounded`).
-/

set_option autoImplicit false

namespace AgentPay.Gateway

open AgentPay.Library AgentPay.Library.Prog

/-! ## The condition -/

/-- The reply says that the charge was confirmed, under a reference. -/
def ProviderReply.Confirms (r : ProviderReply) (reference : Option Json) : Prop :=
  r.statusCode < 400 ∧ ∃ fields, r.fields? = some fields ∧
    Json.isText "confirmed" (fieldOf "status" fields) = true ∧
    reference = some (fieldOf "provider_reference" fields)

/-- The type of the event that reports a transition. -/
def transitionType (target : PaymentState) : String := "payment." ++ target.value.toLower

/-- The type of the event that reports a verdict. -/
def verdictType (d : Decision) : String := "decision." ++ d.value.toLower

/-- The reason code of a transition. -/
def transitionCode (current target : PaymentState) : String :=
  "STATE_" ++ current.value ++ "_TO_" ++ target.value

/-- A transition that was committed from the state that was read. -/
def Transited (s : Memory) (id : ℕ) (target : PaymentState) (reasonCodes : List String) : Prop :=
  ∃ row reference detail, ⟨.getTransaction id, .ok (some row)⟩ ∈ s ∧
    target ∈ validTransitions row.state ∧
    ⟨.commitState id target reference detail, .ok ()⟩ ∈ s ∧
    reasonCodes = [transitionCode row.state target]

/-- What an event reports has been done: the transition, or the row with the verdict. -/
structure Tells (s : Memory) (eventType : String) (id? : Option ℕ) (reasonCodes : List String) :
    Prop where
  transition : ∀ target, eventType = transitionType target →
    ∃ id, id? = some id ∧ Transited s id target reasonCodes
  verdict : ∀ d, d ≠ .block → eventType = verdictType d → ∃ row,
    ⟨.insertTransaction row, .ok ()⟩ ∈ s ∧ id? = some row.paymentAuthorizationId ∧
      row.decision = d ∧ row.reasonCodes = reasonCodes

/-- The row of a transaction under a verdict was inserted. -/
def Inserted (s : Memory) (txn : CanonicalTransaction) (verdict : PDPResult) : Prop :=
  ∃ risk createdAt, ⟨.insertTransaction (newRow txn verdict risk createdAt), .ok ()⟩ ∈ s

/-- The ground of a stored approval request: its transaction was parked, or it was read. -/
def Displayed (s : Memory) (key : String) (request : ApprovalRequest) : Prop :=
  (∃ txn verdict, key = approvalKey txn.paymentAuthorizationId ∧ Inserted s txn verdict ∧
    verdict.decision = .requireApproval ∧
    request = ApprovalRequest.ofTransaction txn verdict.reasonCodes) ∨
  ∃ stored, ⟨.get key, .ok (some (.approvalRequest stored))⟩ ∈ s ∧
    request = { stored with granted := true }

/-- The response carries the verdict and the payment of the row that was inserted for the
transaction. -/
structure Carries (s : Memory) (txn : CanonicalTransaction) (r : DecisionResponse) : Prop where
  id : r.paymentAuthorizationId = txn.paymentAuthorizationId
  row : ∃ verdict, Inserted s txn verdict ∧ r.decision = verdict.decision ∧
    r.reasonCodes = verdict.reasonCodes

/-- The grounds of an operation. -/
def Grounded (s : Memory) : Op → Prop
  | .commitToken id jti expiresAt => ∃ claims, ⟨.signAuthorization claims, .ok ()⟩ ∈ s ∧
      claims.paymentAuthorizationId = id ∧ jti = claims.jti ∧ expiresAt = seconds claims.exp
  | .commitState id .confirmed reference _ => ∃ reply,
      (⟨.awaitCharge id, .ok reply⟩ ∈ s ∨ ⟨.awaitQuery id, .ok reply⟩ ∈ s) ∧
        reply.Confirms reference
  | .awaitCharge id => ∃ token body, ⟨.sendCharge token body, .ok ()⟩ ∈ s ∧
      body.paymentAuthorizationId = id
  | .awaitQuery id => ⟨.sendQuery id, .ok ()⟩ ∈ s
  | .selectStale now => ⟨.now, .ok now⟩ ∈ s
  | .set key (.approvalRequest request) _ => Displayed s key request
  | .set key (.idempotencyRecord payloadHash response) _ => ∃ txn,
      key = idemKey txn.userId txn.idempotencyKey ∧ payloadHash = txn.payloadHash ∧
        Carries s txn response
  | .signApproval claims => ∃ request id jti now,
      ⟨.get (approvalKey id), .ok (some (.approvalRequest request))⟩ ∈ s ∧
        approvalClaims request id jti now = some claims
  | .insertAudit event => Tells s event.eventType event.paymentAuthorizationId event.reasonCodes
  | _ => True

/-- The operations that need no ground. -/
def Plain : Op → Prop
  | .commitToken .. | .insertAudit _ | .awaitCharge _ | .awaitQuery _ | .selectStale _
  | .signApproval _ => False
  | .set _ (.approvalRequest _) _ | .set _ (.idempotencyRecord ..) _ => False
  | .commitState _ target _ _ => target ≠ .confirmed
  | _ => True

theorem grounded_of_plain (s : Memory) (op : Op) (h : Plain op) : Grounded s op := by
  cases op
  case commitState id target reference detail =>
      cases target
      case confirmed => exact absurd rfl h
      all_goals trivial
  case set key value ex => cases value <;> first | exact h.elim | trivial
  all_goals first | exact h.elim | trivial

theorem transitionType_injective {a b : PaymentState} (h : transitionType a = transitionType b) :
    a = b := by
  cases a <;> cases b <;> first
    | rfl
    | exact absurd h (by decide +kernel)

theorem verdictType_injective {a b : Decision} (h : verdictType a = verdictType b) : a = b := by
  cases a <;> cases b <;> first
    | rfl
    | exact absurd h (by decide +kernel)

/-- The type of a transition is no other event's. -/
theorem transitionType_ne {literal : String} {x : Char} (hliteral : literal.toList[0]? = some x)
    (hx : x ≠ 'p') (rest : String) (target : PaymentState) :
    literal ++ rest ≠ transitionType target := by
  intro h
  have hp : (transitionType target).toList[0]? = some 'p' :=
    getElem?_of_literal rfl target.value.toLower
  have hx' := getElem?_of_literal hliteral rest
  rw [h] at hx'
  exact hx (Option.some.inj (hx'.symm.trans hp))

section Conditions

variable {s s' : Memory} {A : Op → Prop}

theorem Inserted.extends {txn : CanonicalTransaction} {verdict : PDPResult}
    (hi : Inserted s txn verdict) (h : Extends A s s') : Inserted s' txn verdict := by
  obtain ⟨risk, createdAt, hmem⟩ := hi
  exact ⟨risk, createdAt, h.mem hmem⟩

theorem Carries.extends {txn : CanonicalTransaction} {r : DecisionResponse} (hc : Carries s txn r)
    (h : Extends A s s') : Carries s' txn r := by
  obtain ⟨hid, verdict, hi, hrest⟩ := hc
  exact ⟨hid, verdict, hi.extends h, hrest⟩

theorem Tells.extends {eventType : String} {id? : Option ℕ} {reasonCodes : List String}
    (ht : Tells s eventType id? reasonCodes) (h : Extends A s s') :
    Tells s' eventType id? reasonCodes where
  transition target heq := by
    obtain ⟨id, hid, row, reference, detail, hread, hvalid, hcommit, hcodes⟩ :=
      ht.transition target heq
    exact ⟨id, hid, row, reference, detail, h.mem hread, hvalid, h.mem hcommit, hcodes⟩
  verdict d hd heq := by
    obtain ⟨row, hinsert, hrow⟩ := ht.verdict d hd heq
    exact ⟨row, h.mem hinsert, hrow⟩

/-- An event of another type reports neither. -/
theorem Tells.silent {eventType : String}
    (htransition : ∀ target, eventType ≠ transitionType target)
    (hverdict : ∀ d, d ≠ .block → eventType ≠ verdictType d) (id? : Option ℕ)
    (reasonCodes : List String) : Tells s eventType id? reasonCodes where
  transition target heq := absurd heq (htransition target)
  verdict d hd heq := absurd heq (hverdict d hd)

end Conditions

/-! ## Readings, windows and locks -/

/-- The operations that read, count and lock. -/
def Calm : Op → Prop
  | .now | .uuid4 | .sleep | .get _ | .setNx .. | .deleteIfValue .. | .isRevoked _ | .zcount ..
  | .zadd .. | .getPolicy _ | .getMerchant _ | .getAgent _ | .sumSettled ..
  | .verifyApproval _ => True
  | _ => False

theorem plain_of_calm {op : Op} (h : Calm op) : Plain op := by
  cases op <;> first | exact h.elim | trivial

section Calm

theorem calm_acquire (name : String) (token ttl n : ℕ) : (acquire name token ttl n).Only Calm :=
  acquire_only (fun _ _ _ => trivial) trivial name token ttl n

theorem calm_release (name : String) (token : ℕ) : (release name token).Only Calm :=
  Only.bind ((only_perform _ _).2 trivial) fun _ => trivial

theorem calm_zcountWindow (key : String) (window : ℕ) : (zcountWindow key window).Only Calm :=
  Only.bind ((only_perform _ _).2 trivial) fun _ => (only_perform _ _).2 trivial

theorem calm_zaddWindow (key : String) (window : ℕ) : (zaddWindow key window).Only Calm :=
  Only.bind ((only_perform _ _).2 trivial) fun _ =>
    Only.bind ((only_perform _ _).2 trivial) fun _ => (only_perform _ _).2 trivial

theorem calm_checkDuplicate (txn : CanonicalTransaction) : (checkDuplicate txn).Only Calm := by
  refine Only.bind ((only_perform _ _).2 trivial) fun raw => ?_
  cases raw with
  | none => exact Only.bind ((only_perform _ _).2 trivial) fun _ => trivial
  | some stored => trivial

theorem calm_loadContext (txn : CanonicalTransaction) : (loadContext txn).Only Calm := by
  refine Only.bind ((only_perform _ _).2 trivial) fun policy => ?_
  refine Only.bind ((only_perform _ _).2 trivial) fun merchant => ?_
  refine Only.bind ((only_perform _ _).2 trivial) fun agent => ?_
  refine Only.bind ((only_perform _ _).2 trivial) fun now => ?_
  refine Only.bind ((only_perform _ _).2 trivial) fun spent => ?_
  exact Only.bind (calm_zcountWindow _ _) fun count => trivial

theorem calm_evaluateToken (token : Option ApprovalToken) : (evaluateToken token).Only Calm := by
  cases token with
  | none => trivial
  | some token =>
      cases token with
      | garbage => trivial
      | signed claims =>
          refine Only.bind ((only_perform _ _).2 trivial) fun genuine => ?_
          refine Only.bind ((only_perform _ _).2 trivial) fun now => ?_
          split
          · split
            · trivial
            · split <;> trivial
          · trivial

theorem calm_checkCeiling (key : String) (limit : ℤ) (scope : String) :
    (checkCeiling key limit scope).Only Calm := by
  unfold checkCeiling
  split
  · refine Only.bind (calm_zcountWindow _ _) fun n => ?_
    split <;> trivial
  · trivial

theorem calm_recordRequest (key : String) (limit : ℤ) : (recordRequest key limit).Only Calm := by
  unfold recordRequest
  split
  · exact Only.bind (calm_zaddWindow _ _) fun _ => trivial
  · trivial

theorem calm_enforceEdgeRateLimit (R : Runtime) (agentId delegationId : String) :
    (enforceEdgeRateLimit R agentId delegationId).Only Calm := by
  unfold enforceEdgeRateLimit
  split
  · refine Only.recover ?_ fun e => by cases e <;> trivial
    refine Only.bind (calm_checkCeiling _ _ _) fun _ => ?_
    refine Only.bind (calm_checkCeiling _ _ _) fun _ => ?_
    exact Only.bind (calm_recordRequest _ _) fun _ => calm_recordRequest _ _
  · trivial

theorem calm_assertNotRevoked (delegationId : String) :
    (assertNotRevoked delegationId).Only Calm := by
  refine Only.bind (Only.recover ((only_perform _ _).2 trivial) fun e => ?_) fun revoked => ?_
  · split <;> trivial
  · split <;> trivial

theorem calm_authenticate (credential : Credential) (intent : PaymentIntent) :
    (authenticate credential intent).Only Calm := by
  refine Only.bind ((only_perform _ _).2 trivial) fun now => Only.bind trivial fun identity => ?_
  simp only
  split
  · trivial
  split
  · trivial
  · exact Only.bind (calm_assertNotRevoked _) fun _ => trivial

/-- A calm program keeps to the condition. -/
theorem keeps_calm {α : Type} {p : Py α} (hp : p.Only Calm) : Keeps Grounded p :=
  hp.keeps fun s op hop => grounded_of_plain s op (plain_of_calm hop)

end Calm

/-! ## The audit log -/

/-- An event with these fields was inserted, under this id and hash. -/
def Appended (f : EventFields) (recorded : ℕ × String) (s : Memory) : Prop :=
  ∃ event, ⟨.insertAudit event, .ok ()⟩ ∈ s ∧ event.eventId = recorded.1 ∧
    event.eventHash = recorded.2 ∧ event.eventType = f.eventType ∧ event.decision = f.decision ∧
    event.paymentAuthorizationId = f.paymentAuthorizationId ∧ event.reasonCodes = f.reasonCodes

theorem Appended.extends {A : Op → Prop} {f : EventFields} {recorded : ℕ × String} {s s' : Memory}
    (ha : Appended f recorded s) (h : Extends A s s') : Appended f recorded s' := by
  obtain ⟨event, hmem, hevent⟩ := ha
  exact ⟨event, h.mem hmem, hevent⟩

theorem keeps_op (op : Op) (h : Plain op) : Keeps Grounded (perform op) :=
  keeps_perform fun s => grounded_of_plain s op h

/-- What holds after a block holds after its lock is released. -/
theorem grounded_withLock {α : Type} (name : String) (ttl : ℕ) {body : Py α} {s : Memory}
    {Q : α → Memory → Prop} (hQ : ∀ a s s', Q a s → Extends (fun _ => True) s s' → Q a s')
    (hbody : ∀ s', Extends (fun _ => True) s s' → body.Follows (watching Grounded) s' (Returns Q)) :
    (withLock name ttl body).Follows (watching Grounded) s (Returns Q) := by
  refine (keeps_op .uuid4 trivial).before fun token s₁ h₁ => ?_
  refine (keeps_calm (calm_acquire name token ttl _)).before fun _ s₂ h₂ => ?_
  exact (hbody s₂ (h₁.trans h₂)).ensure_returns (keeps_calm (calm_release name token)) hQ

theorem grounded_recordEvent (R : Runtime) {f : EventFields} {s : Memory}
    (hf : Tells s f.eventType f.paymentAuthorizationId f.reasonCodes) :
    (recordEvent R f).Follows (watching Grounded) s (Returns (Appended f)) := by
  refine (keeps_op .uuid4 trivial).before fun eventId s₁ h₁ => ?_
  refine (keeps_op .now trivial).before fun createdAt s₂ h₂ => ?_
  refine grounded_withLock "audit_chain" 15 (fun _ _ _ ha h => ha.extends h) fun s₃ h₃ => ?_
  refine (keeps_op .auditHead trivial).before fun prev s₄ h₄ => ?_
  refine Prog.Follows.perform_returns (hf.extends (((h₁.trans h₂).trans h₃).trans h₄)) fun _ => ?_
  exact ⟨_, List.mem_cons_self, rfl, rfl, rfl, rfl, rfl, rfl⟩

/-- A safe append that gives an id has inserted the event. -/
theorem grounded_recordEventSafe (R : Runtime) {f : EventFields} {s : Memory}
    (hf : Tells s f.eventType f.paymentAuthorizationId f.reasonCodes) :
    (recordEventSafe R f).Follows (watching Grounded) s (Returns fun recorded s' =>
      ∀ eventId, recorded.1 = some eventId → ∃ eventHash, recorded.2 = some eventHash ∧
        Appended f (eventId, eventHash) s') := by
  refine (Prog.follows_recover _ _ _ _).2 ((Prog.follows_bind _ _ _ _).2 ?_)
  refine (grounded_recordEvent R hf).mono fun r s' hr => ?_
  cases r with
  | ok recorded =>
      rintro eventId h
      cases h
      exact ⟨recorded.2, rfl, hr⟩
  | error e =>
      change Prog.Follows _ (if _ then _ else _) _ _
      split
      · exact fun _ h => nomatch h
      · trivial

theorem keeps_recordEventSafe (R : Runtime) {f : EventFields}
    (hf : ∀ s, Tells s f.eventType f.paymentAuthorizationId f.reasonCodes) :
    Keeps Grounded (recordEventSafe R f) :=
  keeps_of_follows fun s => grounded_recordEventSafe R (hf s)

/-! ## States -/

/-- A state is committed on the ground there is for it, and then reported. -/
theorem grounded_setState (R : Runtime) (id : ℕ) {target : PaymentState} {reference : Option Json}
    {detail : Option String} (audit : Bool) {s : Memory}
    (hground : ∀ s', Extends (fun _ => True) s s' →
      Grounded s' (.commitState id target reference detail)) :
    (setState R id target reference detail audit).Follows (watching Grounded) s
      (fun _ _ => True) := by
  refine Prog.Follows.perform (P := watching Grounded) trivial (fun row => ?_) fun _ => trivial
  cases row with
  | none => trivial
  | some row =>
      by_cases hvalid : target ∈ validTransitions row.state
      case neg =>
          have hrefused : assertTransition row.state target =
              .error (.invalidTransition row.state target) := if_neg hvalid
          simp only [hrefused]
          trivial
      have haccepted : assertTransition row.state target = .ok () := if_pos hvalid
      simp only [haccepted]
      refine Prog.Follows.perform (P := watching Grounded)
        (hground _ (Extends.cons trivial _ s)) (fun _ => ?_) fun _ => trivial
      cases audit with
      | false => trivial
      | true =>
          refine (grounded_recordEvent R ⟨fun target' htype => ?_, fun d _ htype => ?_⟩).bind
            (fun _ _ _ => trivial) fun _ _ _ => trivial
          · obtain rfl := transitionType_injective htype
            exact ⟨id, rfl, row, reference, detail,
              List.mem_cons_of_mem _ List.mem_cons_self, hvalid, List.mem_cons_self, rfl⟩
          · exact absurd htype.symm (transitionType_ne rfl (by decide) _ target)

theorem keeps_setState (R : Runtime) (id : ℕ) {target : PaymentState} (ht : target ≠ .confirmed)
    (reference : Option Json) (detail : Option String) (audit : Bool) :
    Keeps Grounded (setState R id target reference detail audit) := fun _ =>
  grounded_setState R id audit fun s' _ => grounded_of_plain s' _ ht

/-! ## What the provider says -/

/-- A payment is settled as confirmed on a reply that says so. -/
theorem confirms_of_settlement {R : Runtime} {reply : ProviderReply} {t : Transition}
    (h : settlement R reply = .ok t) (ht : t.target = .confirmed) : reply.Confirms t.reference := by
  unfold settlement at h
  split at h
  · cases h
    cases ht
  · rename_i hstatus
    cases hfields : reply.fields? with
    | none =>
        rw [hfields] at h
        cases h
    | some fields =>
        rw [hfields] at h
        cases h
        unfold settleBody at ht ⊢
        split at ht
        case isTrue hconfirmed =>
            refine ⟨not_le.1 hstatus, fields, hfields, hconfirmed, ?_⟩
            rw [if_pos hconfirmed]
        case isFalse => cases ht

/-- A payment is resolved as confirmed on a reply that says so. -/
theorem confirms_of_resolution {reply : ProviderReply} {t : Transition}
    (h : resolution reply = .ok (some t)) (ht : t.target = .confirmed) :
    reply.Confirms t.reference := by
  unfold resolution at h
  split at h
  · cases h
    cases ht
  split at h
  · cases h
  rename_i hstatus
  cases hfields : reply.fields? with
  | none =>
      rw [hfields] at h
      cases h
  | some fields =>
      rw [hfields] at h
      simp only [resolveBody] at h
      split at h
      case isTrue hconfirmed =>
          cases h
          exact ⟨not_le.1 hstatus, fields, hfields, hconfirmed, rfl⟩
      case isFalse =>
          cases hrefused : hashableIn ["failed", "declined"] (fieldOf "status" fields) with
          | error e =>
              rw [hrefused] at h
              cases h
          | ok refused =>
              rw [hrefused] at h
              cases refused with
              | true =>
                  cases h
                  cases ht
              | false => cases h

/-- A transition that a reply asks for has its ground in the reply. -/
theorem grounded_transition {s : Memory} {id : ℕ} {t : Transition} {reply : ProviderReply}
    (hseen : ⟨.awaitCharge id, .ok reply⟩ ∈ s ∨ ⟨.awaitQuery id, .ok reply⟩ ∈ s)
    (hconfirms : t.target = .confirmed → reply.Confirms t.reference) :
    ∀ s', Extends (fun _ => True) s s' →
      Grounded s' (.commitState id t.target t.reference t.detail) := by
  obtain ⟨target, reference, detail⟩ := t
  intro s' h
  by_cases ht : target = .confirmed
  · subst ht
    exact ⟨reply, hseen.imp h.mem h.mem, hconfirms rfl⟩
  · exact grounded_of_plain s' _ ht

section Programs

variable {R : Runtime} {intent : PaymentIntent} {txn : CanonicalTransaction}

theorem grounded_settleReply {s : Memory} {reply : ProviderReply}
    (hseen : ⟨.awaitCharge txn.paymentAuthorizationId, .ok reply⟩ ∈ s) :
    (settleReply R txn reply).Follows (watching Grounded) s (fun _ _ => True) := by
  rw [settleReply_eq]
  cases hsettlement : settlement R reply with
  | error e => trivial
  | ok t =>
      refine (grounded_setState R _ true ?_).bind (fun _ _ _ => trivial) fun _ _ _ => trivial
      exact grounded_transition (.inl hseen) (confirms_of_settlement hsettlement)

/-- A reply that was received has been seen. -/
theorem grounded_postCharge (token : IssuedToken) (s : Memory) :
    (postCharge txn token).Follows (watching Grounded) s (Returns fun answer s' =>
      ∀ reply, answer = .inl reply →
        ⟨.awaitCharge txn.paymentAuthorizationId, .ok reply⟩ ∈ s') := by
  refine (Prog.follows_recover _ _ _ _).2 ?_
  refine Prog.Follows.perform (P := watching Grounded) trivial (fun _ => ?_) fun e => ?_
  · refine Prog.Follows.perform (P := watching Grounded) ⟨_, _, List.mem_cons_self, rfl⟩
      (fun reply => ?_) fun e => ?_
    · rintro reply' h
      cases h
      exact List.mem_cons_self
    · cases hdetail : e.transportDetail? <;> simp only [hdetail]
      · trivial
      · exact fun _ h => nomatch h
  · cases hdetail : e.transportDetail? <;> simp only [hdetail]
    · trivial
    · exact fun _ h => nomatch h

theorem keeps_submit (token : IssuedToken) : Keeps Grounded (submit R txn token) := by
  refine (keeps_op (.getTransaction _) trivial).bind fun row => ?_
  cases row with
  | none => exact keeps_throw _
  | some row =>
      by_cases huses : 1 ≤ row.tokenUses
      · simp only [if_pos huses]
        exact keeps_pure _
      simp only [if_neg huses]
      refine (keeps_op (.commitUses ..) trivial).bind fun _ => ?_
      refine (keeps_setState R _ (by decide) _ _ _).bind fun _ => fun s => ?_
      refine (grounded_postCharge token s).bind (fun answer s₁ hanswer => ?_) fun _ _ _ => trivial
      cases answer with
      | inl reply => exact grounded_settleReply (hanswer reply rfl)
      | inr failure =>
          refine ((keeps_setState R _ ?_ _ _ _).bind fun _ =>
            (keeps_setState R _ ?_ _ _ _).bind fun _ => keeps_pure _) s₁
          · decide
          · decide

theorem keeps_authorize (policyVersion : String) :
    Keeps Grounded (authorize R txn policyVersion) := by
  intro s
  refine Prog.Follows.bind (R := Returns fun token s' => ∃ claims,
    ⟨.signAuthorization claims, .ok ()⟩ ∈ s' ∧
      claims.paymentAuthorizationId = txn.paymentAuthorizationId ∧ token.jti = claims.jti ∧
        token.expiresAt = claims.exp) ?_ (fun token s₁ hsigned => ?_) fun _ _ _ => trivial
  · refine (keeps_op .now trivial).before fun time s₁ _ => ?_
    refine (keeps_op .uuid4 trivial).before fun jti s₂ _ => ?_
    exact Prog.Follows.perform_returns (P := watching Grounded) trivial fun _ =>
      ⟨_, List.mem_cons_self, rfl, rfl, rfl⟩
  · obtain ⟨claims, hmem, hid, hjti, hexp⟩ := hsigned
    refine Prog.Follows.bind (R := fun _ _ => True) ?_ (fun _ s₂ _ => ?_) fun _ _ _ => trivial
    · refine Prog.Follows.perform (P := watching Grounded) trivial (fun row => ?_) fun _ => trivial
      cases row with
      | none => trivial
      | some row =>
          exact ⟨⟨claims, List.mem_cons_of_mem _ hmem, hid, hjti, by rw [hexp]⟩, fun _ => trivial⟩
    · exact ((keeps_setState R _ (by decide) _ _ _).bind fun _ => keeps_pure _) s₂

/-! ## The response and its event -/

/-- A fresh response that names an audit event names one that was inserted and says the same, and
one that does not block carries the row that was inserted. -/
structure Recorded (r : DecisionResponse) (s : Memory) : Prop where
  event : r.replayed = false → ∀ eventId, r.auditEventId = some eventId → ∃ event,
    ⟨.insertAudit event, .ok ()⟩ ∈ s ∧ event.eventId = eventId ∧
      r.auditHash = some event.eventHash ∧ event.eventType = verdictType r.decision ∧
      event.decision = some r.decision.value ∧
      event.paymentAuthorizationId = some r.paymentAuthorizationId ∧
      event.reasonCodes = r.reasonCodes
  row : r.replayed = false → r.decision ≠ .block → ∃ txn, Carries s txn r

theorem Recorded.extends {A : Op → Prop} {r : DecisionResponse} {s s' : Memory}
    (hr : Recorded r s) (h : Extends A s s') : Recorded r s' where
  event hfresh eventId hid := by
    obtain ⟨event, hmem, hevent⟩ := hr.event hfresh eventId hid
    exact ⟨event, h.mem hmem, hevent⟩
  row hfresh hd := (hr.row hfresh hd).imp fun txn hc => hc.extends h

/-- The response that is given the id and the hash of an append about it. -/
theorem recorded_of_appended {f : EventFields} {r : DecisionResponse} {s : Memory}
    {recorded : Option ℕ × Option String} (hrecorded : ∀ eventId, recorded.1 = some eventId →
      ∃ eventHash, recorded.2 = some eventHash ∧ Appended f (eventId, eventHash) s)
    (hid : r.auditEventId = recorded.1) (hhash : r.auditHash = recorded.2)
    (htype : f.eventType = verdictType r.decision)
    (hdecision : f.decision = some r.decision.value)
    (hpayment : f.paymentAuthorizationId = some r.paymentAuthorizationId)
    (hreasons : f.reasonCodes = r.reasonCodes)
    (hrow : r.decision ≠ .block → ∃ txn, Carries s txn r) : Recorded r s := by
  refine ⟨fun _ eventId heq => ?_, fun _ => hrow⟩
  obtain ⟨eventHash, hhash', event, hmem, heventId, heventHash, heventType, heventDecision,
    heventPayment, heventReasons⟩ := hrecorded eventId (hid.symm.trans heq)
  refine ⟨event, hmem, heventId, ?_, heventType.trans htype, heventDecision.trans hdecision,
    heventPayment.trans hpayment, heventReasons.trans hreasons⟩
  rw [hhash, hhash', heventHash]

theorem verdictType_block : "decision.block" = verdictType .block := by decide +kernel

theorem tells_block (s : Memory) (id? : Option ℕ) (reasonCodes : List String) :
    Tells s "decision.block" id? reasonCodes := by
  have hletter : "decision.".toList[0]? = some 'd' := rfl
  refine .silent (transitionType_ne hletter (by decide) "block") (fun d hd => ?_) id? reasonCodes
  cases d with
  | block => exact absurd rfl hd
  | _ => decide +kernel

theorem tells_replay (s : Memory) (id? : Option ℕ) (reasonCodes : List String) :
    Tells s "decision.idempotent_replay" id? reasonCodes := by
  have hletter : "decision.".toList[0]? = some 'd' := rfl
  refine .silent (transitionType_ne hletter (by decide) "idempotent_replay") (fun d _ => ?_) id?
    reasonCodes
  cases d <;> decide +kernel

theorem tells_grant (s : Memory) (id? : Option ℕ) (reasonCodes : List String) :
    Tells s "approval.granted" id? reasonCodes := by
  have hletter : "approval.".toList[0]? = some 'a' := rfl
  refine .silent (transitionType_ne hletter (by decide) "granted") (fun d _ => ?_) id? reasonCodes
  cases d <;> decide +kernel

/-- A verdict is reported after its row was inserted. -/
theorem tells_verdict {s : Memory} {verdict : PDPResult} (h : Inserted s txn verdict) :
    Tells s (verdictType verdict.decision) (some txn.paymentAuthorizationId)
      verdict.reasonCodes where
  transition target heq := by
    have hletter : "decision.".toList[0]? = some 'd' := rfl
    exact absurd heq (transitionType_ne hletter (by decide) _ target)
  verdict d _ heq := by
    obtain ⟨risk, createdAt, hmem⟩ := h
    exact ⟨_, hmem, rfl, verdictType_injective heq, rfl⟩

theorem grounded_blockedBeforePipeline (reasonCodes : List String) (message stage : String)
    (s : Memory) : (blockedBeforePipeline R intent reasonCodes message stage).Follows
      (watching Grounded) s (Returns Recorded) := by
  refine (keeps_op .uuid4 trivial).before fun id s₁ _ => ?_
  refine (grounded_recordEventSafe R (tells_block s₁ _ _)).bind_returns fun recorded s₂ hr => ?_
  refine Prog.Follows.perform_returns (P := watching Grounded) trivial fun createdAt => ?_
  exact (recorded_of_appended hr rfl rfl verdictType_block rfl rfl rfl
    fun h => absurd rfl h).extends (A := fun _ => True) (Extends.cons trivial _ s₂)

theorem grounded_replay (stored : DecisionResponse) (s : Memory) :
    (replay R txn stored).Follows (watching Grounded) s (Returns Recorded) :=
  (keeps_recordEventSafe R fun s => tells_replay s _ _).before fun _ _ _ =>
    ⟨fun h => (nomatch h), fun h => (nomatch h)⟩

/-! ## The pipeline -/

/-- Stage 6 keeps what the response says about the verdict. -/
theorem grounded_finish {verdict : PDPResult} (response : DecisionResponse) (execute : Bool)
    {s : Memory} (hi : Inserted s txn verdict) :
    (finish R txn verdict response execute).Follows (watching Grounded) s
      (Returns fun r _ => SameAnswer response r) := by
  unfold finish
  cases hd : verdict.decision with
  | block =>
      exact (keeps_setState R _ (by decide) _ _ _).before fun _ _ _ => ⟨rfl, rfl, rfl, rfl⟩
  | requireApproval =>
      refine Prog.Follows.bind_returns (R := fun _ _ => True) ?_ fun _ _ _ => ⟨rfl, rfl, rfl, rfl⟩
      refine Prog.Follows.perform_returns (P := watching Grounded) ?_ fun _ => trivial
      exact .inl ⟨txn, verdict, rfl, hi, hd, rfl⟩
  | allow =>
      refine (keeps_calm (calm_zaddWindow _ _)).before fun _ s₁ _ => ?_
      refine (keeps_authorize verdict.policyVersion).before fun token s₂ _ => ?_
      simp only
      split
      · exact (keeps_submit token).before fun _ _ _ => ⟨rfl, rfl, rfl, rfl⟩
      · exact ⟨rfl, rfl, rfl, rfl⟩

/-- An answer is remembered with the row it carries. -/
theorem grounded_rememberOutcome {response : DecisionResponse} (reserve : Bool) {s : Memory}
    (hc : Carries s txn response) :
    (rememberOutcome R txn response reserve).Follows (watching Grounded) s (fun _ _ => True) := by
  refine Prog.Follows.perform (P := watching Grounded) ⟨txn, rfl, rfl, hc⟩ (fun _ => ?_)
    fun _ => trivial
  split
  · exact ⟨trivial, fun _ => trivial⟩
  · trivial

theorem grounded_concludeRequest {outcome : IdempotencyOutcome} {verdict : PDPResult}
    {event : EventFields} {response : DecisionResponse} {s : Memory}
    (htells : Tells s event.eventType event.paymentAuthorizationId event.reasonCodes)
    (htype : event.eventType = verdictType response.decision)
    (hdecision : event.decision = some response.decision.value)
    (hpayment : event.paymentAuthorizationId = some response.paymentAuthorizationId)
    (hreasons : event.reasonCodes = response.reasonCodes) (hc : Carries s txn response) :
    (concludeRequest R txn outcome verdict event response).Follows (watching Grounded) s
      (Returns Recorded) := by
  refine (grounded_recordEventSafe R htells).grows.bind (fun recorded s₁ ⟨hr, h₁⟩ => ?_)
    fun _ _ _ => trivial
  have hcarries : Carries s₁ txn
      { response with auditEventId := recorded.1, auditHash := recorded.2 } :=
    ⟨hc.id, (hc.extends h₁).row⟩
  have hrecorded : Recorded
      { response with auditEventId := recorded.1, auditHash := recorded.2 } s₁ :=
    recorded_of_appended hr rfl rfl htype hdecision hpayment hreasons fun _ => ⟨txn, hcarries⟩
  simp only
  split
  · exact (grounded_rememberOutcome _ hcarries).grows.bind
      (fun _ _ h => hrecorded.extends h.2) fun _ _ _ => trivial
  · exact hrecorded

/-- The row is inserted with the verdict, and the event reports that verdict. -/
theorem grounded_carryOut (execute : Bool) (outcome : IdempotencyOutcome)
    (analysis : AnalysisResult) (ctx : PolicyContext) (verdict : PDPResult) (s : Memory) :
    (carryOut R txn execute outcome analysis ctx verdict).Follows (watching Grounded) s
      (Returns Recorded) := by
  refine (keeps_op .now trivial).before fun createdAt s₁ _ => ?_
  refine Prog.Follows.bind_returns (R := fun _ s' => Inserted s' txn verdict) ?_ fun _ s₂ hi => ?_
  · refine (keeps_op .now trivial).before fun now s₂ _ => ⟨trivial, fun answer => ?_⟩
    cases answer with
    | error e => trivial
    | ok _ => exact ⟨_, now, List.mem_cons_self⟩
  · refine (grounded_finish _ execute hi).grows.bind (fun response s₃ h => ?_) fun _ _ _ => trivial
    have hsame : SameAnswer _ response := h.1
    exact grounded_concludeRequest (tells_verdict (hi.extends h.2))
      (congrArg verdictType hsame.decision.symm)
      (congrArg (some ∘ Decision.value) hsame.decision.symm) (congrArg some hsame.id.symm)
      hsame.reasonCodes.symm
      ⟨hsame.id, verdict, hi.extends h.2, hsame.decision, hsame.reasonCodes⟩

theorem grounded_enforce (userId : String) (execute : Bool) (outcome : IdempotencyOutcome)
    (s : Memory) : (enforce R txn userId execute outcome).Follows (watching Grounded) s
      (Returns Recorded) := by
  refine (keeps_op (.analyze txn) trivial).before fun analysis s₁ _ => ?_
  refine (keeps_calm (calm_loadContext txn)).before fun ctx s₂ _ => ?_
  refine (keeps_calm (calm_evaluateToken txn.approvalToken)).before fun approval s₃ _ => ?_
  exact (keeps_op (.evaluatePolicy _) trivial).before fun answer s₄ _ =>
    grounded_carryOut execute outcome analysis ctx _ s₄

theorem grounded_runPipeline (userId : String) (execute : Bool) (s : Memory) :
    (runPipeline R txn userId execute).Follows (watching Grounded) s (Returns Recorded) := by
  refine (keeps_calm (calm_checkDuplicate txn)).before fun outcome s₁ _ => ?_
  cases outcome.replayResponse with
  | none =>
      simp only
      exact grounded_enforce userId execute outcome s₁
  | some stored =>
      simp only
      exact grounded_replay stored s₁

theorem grounded_concurrentRequest (id : ℕ) (s : Memory) :
    (concurrentRequest R id).Follows (watching Grounded) s (Returns Recorded) :=
  (keeps_op .now trivial).before fun _ _ _ =>
    ⟨fun _ _ h => (nomatch h), fun _ h => absurd rfl h⟩

theorem grounded_guardedPipeline (identity : AgentIdentity) (execute : Bool) (s : Memory) :
    (guardedPipeline R intent identity execute).Follows (watching Grounded) s
      (Returns Recorded) := by
  refine (keeps_op .uuid4 trivial).before fun id s₁ _ => ?_
  refine (keeps_op .now trivial).before fun timestamp s₂ _ => ?_
  refine (Prog.follows_recover _ _ _ _).2 ?_
  refine (grounded_withLock (Q := Recorded) _ _ (fun _ _ _ => Recorded.extends) fun s₃ _ =>
    grounded_withLock _ _ (fun _ _ _ => Recorded.extends) fun s₄ _ =>
      grounded_runPipeline identity.userId execute s₄).mono fun r s₅ hr => ?_
  cases r with
  | ok r => exact hr
  | error e =>
      cases e with
      | timeoutError => exact grounded_concurrentRequest id s₅
      | _ => trivial

theorem grounded_admission (identity : AgentIdentity) (execute : Bool) (s : Memory) :
    (admission R intent identity execute).Follows (watching Grounded) s (Returns Recorded) := by
  refine (keeps_calm (calm_enforceEdgeRateLimit R _ _)).attempt.before fun admitted s₁ _ => ?_
  cases admitted with
  | ok _ => exact grounded_guardedPipeline identity execute s₁
  | error e =>
      cases e with
      | rateLimitError scope limit => exact grounded_blockedBeforePipeline _ _ _ s₁
      | _ => trivial

theorem grounded_createPaymentIntent (credential : Credential) (execute : Bool) (s : Memory) :
    (createPaymentIntent R intent credential execute).Follows (watching Grounded) s
      (Returns Recorded) := by
  refine (keeps_calm (calm_authenticate credential intent)).attempt.before
    fun authenticated s₁ _ => ?_
  cases authenticated with
  | ok identity => exact grounded_admission identity execute s₁
  | error e =>
      cases e with
      | identityError reasonCode message => exact grounded_blockedBeforePipeline _ _ _ s₁
      | _ => trivial

end Programs

/-! ## The other jobs -/

section Upkeep

variable {R : Runtime}

/-- A request that is loaded has been read. -/
theorem grounded_loadRequest (id : ℕ) (s : Memory) :
    (loadRequest id).Follows (watching Grounded) s (Returns fun request s' => ∀ stored,
      request = some stored →
        ⟨.get (approvalKey id), .ok (some (.approvalRequest stored))⟩ ∈ s') := by
  refine Prog.Follows.perform_returns (P := watching Grounded) trivial fun raw => ?_
  cases raw with
  | none => exact fun _ h => nomatch h
  | some stored =>
      cases stored with
      | approvalRequest request =>
          rintro stored h
          cases h
          exact List.mem_cons_self
      | _ => trivial

theorem keeps_grant (id : ℕ) : Keeps Grounded (grant id) := by
  intro s
  refine (grounded_loadRequest id s).bind (fun request s₁ hrequest => ?_) fun _ _ _ => trivial
  cases request with
  | none => trivial
  | some request =>
      have hread := hrequest request rfl
      refine Prog.Follows.perform (P := watching Grounded) (.inr ⟨request, hread, rfl⟩)
        (fun _ => ?_) fun _ => trivial
      refine Prog.Follows.perform (P := watching Grounded) trivial (fun time => ?_) fun _ => trivial
      refine Prog.Follows.perform (P := watching Grounded) trivial (fun jti => ?_) fun _ => trivial
      cases hclaims : approvalClaims request id jti (time / seconds 1) with
      | none => trivial
      | some claims =>
          refine Prog.Follows.perform (P := watching Grounded) ⟨request, id, jti, _, ?_, hclaims⟩
            (fun _ => trivial) fun _ => trivial
          exact List.mem_cons_of_mem _ (List.mem_cons_of_mem _ (List.mem_cons_of_mem _ hread))

theorem keeps_grantApproval (R : Runtime) (id : ℕ) : Keeps Grounded (grantApproval R id) := by
  refine (keeps_grant id).bind fun token => ?_
  cases token with
  | none => exact keeps_pure _
  | some token =>
      exact (keeps_of_follows (grounded_loadRequest id)).bind fun request =>
        (keeps_recordEventSafe R fun s => tells_grant s _ _).bind fun _ => keeps_pure _

/-- A reply to a query that was received has been seen. -/
theorem grounded_queryCharge (id : ℕ) (s : Memory) :
    (queryCharge id).Follows (watching Grounded) s (Returns fun answer s' =>
      ∀ reply, answer = some reply → ⟨.awaitQuery id, .ok reply⟩ ∈ s') := by
  have hfailed : ∀ (e : Exn) s', Prog.Follows (watching Grounded)
      (if e.isHttpError then pure none else Prog.throw e : Py (Option ProviderReply)) s'
      (Returns fun answer s' =>
        ∀ reply, answer = some reply → ⟨.awaitQuery id, .ok reply⟩ ∈ s') := by
    intro e s'
    split
    · exact fun _ h => nomatch h
    · trivial
  refine (Prog.follows_recover _ _ _ _).2 ?_
  refine Prog.Follows.perform (P := watching Grounded) trivial (fun _ => ?_) fun e => hfailed e _
  refine Prog.Follows.perform (P := watching Grounded) List.mem_cons_self (fun reply => ?_)
    fun e => hfailed e _
  rintro reply' h
  cases h
  exact List.mem_cons_self

theorem grounded_resolveReply {id : ℕ} {reply : ProviderReply} (counts : Resolved) {s : Memory}
    (hseen : ⟨.awaitQuery id, .ok reply⟩ ∈ s) :
    (resolveReply R id reply counts).Follows (watching Grounded) s (fun _ _ => True) := by
  rw [resolveReply_eq]
  cases hresolution : resolution reply with
  | error e => trivial
  | ok t =>
      cases t with
      | none => trivial
      | some t =>
          refine (grounded_setState R _ true ?_).bind (fun _ _ _ => trivial) fun _ _ _ => trivial
          exact grounded_transition (.inr hseen) (confirms_of_resolution hresolution)

theorem keeps_reconcilePending (pending : List (ℕ × String)) (counts : Resolved) :
    Keeps Grounded (reconcilePending R pending counts) := by
  induction pending generalizing counts with
  | nil => exact keeps_pure _
  | cons payment pending ih =>
      intro s
      refine (grounded_queryCharge payment.1 s).bind (fun answer s₁ hanswer => ?_)
        fun _ _ _ => trivial
      cases answer with
      | none => exact ih _ s₁
      | some reply =>
          exact (grounded_resolveReply counts (hanswer reply rfl)).bind
            (fun counts s₂ _ => ih counts s₂) fun _ _ _ => trivial

theorem keeps_reconcileUnknown (R : Runtime) (maxAge : ℕ) :
    Keeps Grounded (reconcileUnknown R maxAge) :=
  keeps_perform_bind (fun _ => trivial) fun _ =>
    keeps_perform_bind (fun _ => trivial) fun pending =>
    keeps_reconcilePending pending {}

theorem keeps_expireAll (stale : List ℕ) : Keeps Grounded (expireAll R stale) := by
  induction stale with
  | nil => exact keeps_pure _
  | cons id stale ih => exact (keeps_setState R id (by decide) _ _ _).bind fun _ => ih

theorem keeps_expireStaleAuthorizations (R : Runtime) :
    Keeps Grounded (expireStaleAuthorizations R) := by
  intro s
  refine Prog.Follows.perform (P := watching Grounded) trivial (fun now => ?_) fun _ => trivial
  refine Prog.Follows.perform (P := watching Grounded) List.mem_cons_self (fun stale => ?_)
    fun _ => trivial
  exact ((keeps_expireAll stale).bind fun _ => keeps_pure _) _

end Upkeep

/-! ## The jobs -/

/-- What a request is answered with is on record. -/
def OnRecord : Job → Except Exn Response → Memory → Prop
  | .paymentIntent .., .ok (.decision r), s => Recorded r s
  | _, _, _ => True

theorem keeps_unhandled {α : Type} {p : Py α} (toResponse : α → Response) (hp : Keeps Grounded p) :
    Keeps Grounded (unhandled toResponse p) :=
  (hp.bind fun _ => keeps_pure _).recover fun e => by
    split
    · exact keeps_pure _
    · exact keeps_throw _

/-- **Every job has its grounds, and what a request is answered with is on record.** -/
theorem job_grounded (R : Runtime) (job : Job) :
    (job.start R).Follows (watching Grounded) [] (OnRecord job) := by
  have hkept : ∀ {job' : Job}, Keeps Grounded (job'.start R) → (∀ r s, OnRecord job' r s) →
      (job'.start R).Follows (watching Grounded) [] (OnRecord job') :=
    fun hp hpost => (hp []).mono fun r s _ => hpost r s
  cases job with
  | paymentIntent intent credential execute =>
      refine (Prog.follows_recover _ _ _ _).2 ((Prog.follows_bind _ _ _ _).2 ?_)
      refine (grounded_createPaymentIntent credential execute []).mono fun r s hr => ?_
      cases r with
      | ok r => exact hr
      | error e =>
          change Prog.Follows _ (if _ then _ else _) _ _
          split
          · trivial
          · trivial
  | grantApproval id =>
      exact hkept (keeps_unhandled _ (keeps_grantApproval R id)) fun _ _ => trivial
  | reconcile =>
      refine hkept (keeps_unhandled _ ?_) fun _ _ => trivial
      exact (keeps_reconcileUnknown R _).bind fun _ =>
        (keeps_expireStaleAuthorizations R).bind fun _ => keeps_pure _
  | reconcileUnknown =>
      exact hkept (keeps_unhandled _ (keeps_reconcileUnknown R _)) fun _ _ => trivial
  | expireStaleAuthorizations =>
      exact hkept (keeps_unhandled _ (keeps_expireStaleAuthorizations R)) fun _ _ => trivial

end AgentPay.Gateway
