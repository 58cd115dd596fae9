import AgentPay.Gateway.Keys
import AgentPay.Gateway.Solo
import AgentPay.Library.Watching

/-!
# What a request has seen

A payment request under the protocol that remembers everything. `Own` lists the operations a request
performs on its own behalf, each with what must have been seen before: a record is looked up inside
the critical section; a row is inserted, a credential signed and a charge sent only after a lookup
that did not find the answer to this very payload; a record is stored by the one request inside the
section, which found none and stores one only. `Decided` says what lies behind an answer: a refusal,
the replay of a record that was looked up, or a verdict on what was read from the registries.
-/

set_option autoImplicit false

namespace AgentPay.Gateway

open AgentPay.Library AgentPay.Policies

/-- What a job has seen. -/
abbrev Memory := Seen Op Op.Val Exn

/-- An operation beside a request's own work: it works on no key of a request, and neither inserts,
signs nor sends. -/
def Aside : Op → Prop
  | .get _ | .insertTransaction _ | .signAuthorization _ | .sendCharge .. | .sendQuery _ => False
  | .set key _ _ | .setNx key _ _ | .deleteIfValue key _ => CommonKey key
  | _ => True

/-! ## Facts of the memory -/

/-- The lock was acquired and not released. -/
structure Inside (name : String) (s : Memory) : Prop where
  acquired : ∃ token ttl, ⟨.setNx (lockKey name) token ttl, .ok true⟩ ∈ s
  held : ∀ token answer, ⟨.deleteIfValue (lockKey name) token, answer⟩ ∉ s

/-- No key was looked up. -/
def NoLookup (s : Memory) : Prop := ∀ key answer, ⟨.get key, answer⟩ ∉ s

/-- The idempotency record was not written. -/
def Unrecorded (txn : CanonicalTransaction) (s : Memory) : Prop :=
  ∀ value ex answer, ⟨.set (idemKey txn.userId txn.idempotencyKey) value ex, answer⟩ ∉ s

/-- A credential was signed. -/
def Signed (s : Memory) : Prop := ∃ claims answer, ⟨.signAuthorization claims, answer⟩ ∈ s

/-- The lookup of the idempotency record did not find an answer to this payload. -/
def Unmatched (txn : CanonicalTransaction) (s : Memory) : Prop :=
  ∃ v, ⟨.get (idemKey txn.userId txn.idempotencyKey), .ok v⟩ ∈ s ∧
    ∀ response, v ≠ some (.idempotencyRecord txn.payloadHash response)

/-- The token is signed for the agent, the user and the delegation of the intent, with the scope of
payments, it had not expired at an instant that was read, and the delegation was found not
revoked. -/
def Admitted (credential : Credential) (intent : PaymentIntent) (s : Memory) : Prop :=
  ∃ claims now, credential = .signed claims ∧ claims.agentId = some intent.agentId ∧
    claims.sub = intent.userId ∧ claims.delegationId = some intent.delegationId ∧
    requiredScope ∈ claims.scopes ∧ ⟨.now, .ok now⟩ ∈ s ∧ now < seconds claims.exp ∧
    ⟨.isRevoked intent.delegationId, .ok false⟩ ∈ s

/-- The canonical transaction of the intent, under an identifier that was drawn and at an instant
that was read. -/
def Works (R : Runtime) (intent : PaymentIntent) (txn : CanonicalTransaction) (s : Memory) : Prop :=
  ∃ identity id timestamp, txn = buildCanonical R intent identity id timestamp ∧
    identity.userId = intent.userId ∧ identity.agentId = intent.agentId ∧
    identity.delegationId = intent.delegationId ∧ ⟨.uuid4, .ok id⟩ ∈ s ∧ ⟨.now, .ok timestamp⟩ ∈ s

/-- The evidence consists of what was read. -/
structure Basis (txn : CanonicalTransaction) (e : Evidence) (s : Memory) : Prop where
  sameTxn : e.txn = txn
  context : ∃ policy merchant agent spent count, ⟨.getPolicy txn.delegationId, .ok policy⟩ ∈ s ∧
    ⟨.getMerchant txn.merchantId, .ok merchant⟩ ∈ s ∧ ⟨.getAgent txn.agentId, .ok agent⟩ ∈ s ∧
    e.ctx = contextOf txn policy merchant agent spent count
  duplicate : e.duplicate.idempotencyConflict = false → e.duplicate.fingerprintConflict = false →
    ⟨.get (idemKey txn.userId txn.idempotencyKey), .ok none⟩ ∈ s ∧
      ∃ seen, ⟨.get (fingerprintKey txn.fingerprint), .ok seen⟩ ∈ s ∧ slotTaken txn seen = false
  approval : e.approval.present = true → e.approval.valid = true → ∃ claims,
    txn.approvalToken = some (.signed claims) ∧ findingOfClaims claims = some e.approval ∧
      ⟨.verifyApproval claims, .ok true⟩ ∈ s

/-- The verdict is the reading of the policy's answer on evidence that was read. -/
def Judged (txn : CanonicalTransaction) (verdict : PDPResult) (s : Memory) : Prop :=
  ∃ e answer, Basis txn e s ∧ ⟨.evaluatePolicy (buildInput e), .ok answer⟩ ∈ s ∧
    verdict = readAnswer (buildInput e) answer

/-! ## The request's own operations -/

/-- The response carries the decision of a verdict that was given. -/
structure Fresh (txn : CanonicalTransaction) (r : DecisionResponse) (s : Memory) : Prop where
  unmatched : Unmatched txn s
  replayed : r.replayed = false
  id : r.paymentAuthorizationId = txn.paymentAuthorizationId
  judged : ∃ verdict, Judged txn verdict s ∧ r.decision = verdict.decision ∧
    r.reasonCodes = verdict.reasonCodes
  signed : Signed s → r.decision = .allow

/-- The operations of a request on its own behalf. -/
def Own (R : Runtime) (intent : PaymentIntent) (s : Memory) : Op → Prop
  | .get key => ∃ txn, Works R intent txn s ∧
      (key = idemKey txn.userId txn.idempotencyKey ∧ Inside (idemLock txn) s ∨
        key = fingerprintKey txn.fingerprint ∧ Inside (fingerprintLock txn) s)
  | .setNx key _ _ | .deleteIfValue key _ => ∃ txn, Works R intent txn s ∧
      (key = lockKey (idemLock txn) ∨ key = lockKey (fingerprintLock txn))
  | .set key (.idempotencyRecord payloadHash response) ex => ∃ txn, Works R intent txn s ∧
      key = idemKey txn.userId txn.idempotencyKey ∧ payloadHash = txn.payloadHash ∧
      ex = R.settings.idempotencyTtlSeconds ∧ Inside (idemLock txn) s ∧
      ⟨.get key, .ok none⟩ ∈ s ∧ Unrecorded txn s ∧ Fresh txn response s
  | .set key (.paymentAuthorizationId id) ex => ∃ txn, Works R intent txn s ∧
      key = fingerprintKey txn.fingerprint ∧ id = txn.paymentAuthorizationId ∧
      ex = R.settings.fingerprintWindowSeconds * 2 ∧ Inside (fingerprintLock txn) s
  | .insertTransaction _ => ∃ txn, Works R intent txn s ∧ Unmatched txn s
  | .signAuthorization _ => ∃ txn verdict, Works R intent txn s ∧ Unmatched txn s ∧
      Inside (fingerprintLock txn) s ∧ Judged txn verdict s ∧ verdict.decision = .allow ∧ ¬ Signed s
  | .sendCharge .. => ∃ txn, Works R intent txn s ∧ Unmatched txn s ∧ Signed s
  | _ => False

/-- The operations of a request. -/
def Asks (R : Runtime) (intent : PaymentIntent) (s : Memory) (op : Op) : Prop :=
  Aside op ∨ Own R intent s op

/-- The protocol of a request. -/
abbrev asking (R : Runtime) (intent : PaymentIntent) : Protocol Op Op.Val Exn Memory :=
  watching (Asks R intent)

/-! ## Frames -/

section Frames

variable {R : Runtime} {intent : PaymentIntent} {txn : CanonicalTransaction} {s s' : Memory}

theorem Works.extends {A : Op → Prop} (hw : Works R intent txn s) (h : Extends A s s') :
    Works R intent txn s' := by
  obtain ⟨identity, id, timestamp, heq, huser, hagent, hdelegation, hid, hnow⟩ := hw
  exact ⟨identity, id, timestamp, heq, huser, hagent, hdelegation, h.mem hid, h.mem hnow⟩

theorem Works.userId (hw : Works R intent txn s) : txn.userId = intent.userId := by
  obtain ⟨identity, id, timestamp, rfl, huser, -⟩ := hw
  exact huser

theorem Works.agentId (hw : Works R intent txn s) : txn.agentId = intent.agentId := by
  obtain ⟨identity, id, timestamp, rfl, -, hagent, -⟩ := hw
  exact hagent

theorem Works.delegationId (hw : Works R intent txn s) : txn.delegationId = intent.delegationId := by
  obtain ⟨identity, id, timestamp, rfl, -, -, hdelegation, -⟩ := hw
  exact hdelegation

theorem Works.idemKey_eq (hw : Works R intent txn s) : idemKey txn.userId txn.idempotencyKey =
    idemKey intent.userId intent.idempotencyKey := by
  obtain ⟨identity, id, timestamp, rfl, huser, -⟩ := hw
  rw [buildCanonical, huser]

theorem Works.payloadHash (hw : Works R intent txn s) : txn.payloadHash = intent.payloadHash R := by
  obtain ⟨identity, id, timestamp, rfl, -⟩ := hw
  rfl

theorem Unmatched.extends {A : Op → Prop} (hu : Unmatched txn s) (h : Extends A s s') :
    Unmatched txn s' := by
  obtain ⟨v, hv, hne⟩ := hu
  exact ⟨v, h.mem hv, hne⟩

theorem Admitted.extends {A : Op → Prop} {credential : Credential}
    (ha : Admitted credential intent s) (h : Extends A s s') : Admitted credential intent s' := by
  obtain ⟨claims, now, hcredential, hagent, hsub, hdelegation, hscope, hnow, hexp, hrevoked⟩ := ha
  exact ⟨claims, now, hcredential, hagent, hsub, hdelegation, hscope, h.mem hnow, hexp,
    h.mem hrevoked⟩

theorem Basis.extends {A : Op → Prop} {e : Evidence} (hb : Basis txn e s) (h : Extends A s s') :
    Basis txn e s' where
  sameTxn := hb.sameTxn
  context := by
    obtain ⟨policy, merchant, agent, spent, count, hpolicy, hmerchant, hagent, hctx⟩ := hb.context
    exact ⟨policy, merchant, agent, spent, count, h.mem hpolicy, h.mem hmerchant, h.mem hagent, hctx⟩
  duplicate hi hf := by
    obtain ⟨hnone, seen, hseen, hfree⟩ := hb.duplicate hi hf
    exact ⟨h.mem hnone, seen, h.mem hseen, hfree⟩
  approval hp hv := by
    obtain ⟨claims, htoken, hfinding, hverify⟩ := hb.approval hp hv
    exact ⟨claims, htoken, hfinding, h.mem hverify⟩

theorem Judged.extends {A : Op → Prop} {verdict : PDPResult} (hj : Judged txn verdict s)
    (h : Extends A s s') : Judged txn verdict s' := by
  obtain ⟨e, answer, hb, hanswer, heq⟩ := hj
  exact ⟨e, answer, hb.extends h, h.mem hanswer, heq⟩

theorem idemLock_mem (txn : CanonicalTransaction) : lockKey (idemLock txn) ∈ txn.storeKeys :=
  List.mem_cons_of_mem _ List.mem_cons_self

theorem fingerprintLock_mem (txn : CanonicalTransaction) :
    lockKey (fingerprintLock txn) ∈ txn.storeKeys := by
  simp [CanonicalTransaction.storeKeys]

theorem idemKey_mem (txn : CanonicalTransaction) :
    idemKey txn.userId txn.idempotencyKey ∈ txn.storeKeys := List.mem_cons_self

/-- A lock stays acquired while it is not released. -/
theorem Inside.extends {A : Op → Prop} {name : String} (hi : Inside name s)
    (hA : ∀ token, ¬ A (.deleteIfValue (lockKey name) token)) (h : Extends A s s') :
    Inside name s' where
  acquired := by
    obtain ⟨token, ttl, hmem⟩ := hi.acquired
    exact ⟨token, ttl, h.mem hmem⟩
  held token answer hmem := by
    rcases h.mem_cases hmem with hop | hmem
    · exact hA token hop
    · exact hi.held token answer hmem

theorem NoLookup.extends {A : Op → Prop} (hn : NoLookup s) (hA : ∀ key, ¬ A (.get key))
    (h : Extends A s s') : NoLookup s' := by
  intro key answer hmem
  rcases h.mem_cases hmem with hop | hmem
  · exact hA key hop
  · exact hn key answer hmem

theorem Unrecorded.extends {A : Op → Prop} (hu : Unrecorded txn s)
    (hA : ∀ value ex, ¬ A (.set (idemKey txn.userId txn.idempotencyKey) value ex))
    (h : Extends A s s') : Unrecorded txn s' := by
  intro value ex answer hmem
  rcases h.mem_cases hmem with hop | hmem
  · exact hA value ex hop
  · exact hu value ex answer hmem

/-- A credential that was signed already. -/
theorem Signed.of_extends {A : Op → Prop} (hs : Signed s')
    (hA : ∀ claims, ¬ A (.signAuthorization claims)) (h : Extends A s s') : Signed s := by
  obtain ⟨claims, answer, hmem⟩ := hs
  rcases h.mem_cases hmem with hop | hmem
  · exact absurd hop (hA claims)
  · exact ⟨claims, answer, hmem⟩

theorem Fresh.extends {A : Op → Prop} {r : DecisionResponse} (hr : Fresh txn r s)
    (hA : ∀ claims, ¬ A (.signAuthorization claims)) (h : Extends A s s') : Fresh txn r s' where
  unmatched := hr.unmatched.extends h
  replayed := hr.replayed
  id := hr.id
  judged := by
    obtain ⟨verdict, hj, hdecision, hreasons⟩ := hr.judged
    exact ⟨verdict, hj.extends h, hdecision, hreasons⟩
  signed hs := hr.signed (hs.of_extends hA h)

end Frames

/-! ## Programs beside the request's own work -/

/-- An early operation on common keys is beside a request's own work. -/
theorem aside_of_early {op : Op} (h : Early op) (hkey : OnKeys CommonKey op) : Aside op := by
  rcases h with h | ⟨key, since, rfl⟩
  · cases op <;> first
      | exact hkey _ rfl
      | trivial
  · trivial

theorem aside_of_quiet {op : Op} (h : Quiet op) (hkey : OnKeys CommonKey op) : Aside op :=
  aside_of_early (.inl h) hkey

theorem aside_recordEvent (R : Runtime) (f : EventFields) : (recordEvent R f).Only Aside :=
  ((only_recordEvent R f).and (keys_recordEvent (fun _ h => h) R f)).mono fun _ h =>
    aside_of_quiet h.1 h.2

theorem aside_recordEventSafe (R : Runtime) (f : EventFields) : (recordEventSafe R f).Only Aside :=
  ((only_recordEventSafe R f).and (keys_recordEventSafe (fun _ h => h) R f)).mono fun _ h =>
    aside_of_quiet h.1 h.2

theorem aside_enforceEdgeRateLimit (R : Runtime) (agentId delegationId : String) :
    (enforceEdgeRateLimit R agentId delegationId).Only Aside :=
  ((only_enforceEdgeRateLimit R agentId delegationId).and
    (keys_enforceEdgeRateLimit (fun _ h => h) R agentId delegationId)).mono fun _ h =>
      aside_of_early h.1 h.2

theorem aside_blockedBeforePipeline (R : Runtime) (intent : PaymentIntent)
    (reasonCodes : List String) (message stage : String) :
    (blockedBeforePipeline R intent reasonCodes message stage).Only Aside :=
  ((only_blockedBeforePipeline R intent reasonCodes message stage).and
    (keys_blockedBeforePipeline (fun _ h => h) R intent reasonCodes message stage)).mono fun _ h =>
      aside_of_quiet h.1 h.2

theorem aside_replay (R : Runtime) (txn : CanonicalTransaction) (stored : DecisionResponse) :
    (replay R txn stored).Only Aside :=
  Prog.Only.bind (aside_recordEventSafe R _) fun _ => trivial

theorem aside_evaluateToken (token : Option ApprovalToken) : (evaluateToken token).Only Aside := by
  cases token with
  | none => trivial
  | some token =>
      cases token with
      | garbage => trivial
      | signed claims =>
          refine Prog.Only.bind ((Prog.only_perform _ _).2 trivial) fun genuine => ?_
          refine Prog.Only.bind ((Prog.only_perform _ _).2 trivial) fun now => ?_
          split
          · split
            · trivial
            · split <;> trivial
          · trivial

theorem aside_setState (R : Runtime) (id : ℕ) (target : PaymentState) (reference : Option Json)
    (detail : Option String) (audit : Bool) :
    (setState R id target reference detail audit).Only Aside := by
  refine Prog.Only.bind ((Prog.only_perform _ _).2 trivial) fun row => ?_
  cases row with
  | none => trivial
  | some row =>
      refine Prog.Only.bind trivial fun _ => ?_
      refine Prog.Only.bind ((Prog.only_perform _ _).2 trivial) fun _ => ?_
      cases audit with
      | false => trivial
      | true => exact Prog.Only.bind (aside_recordEvent R _) fun _ => trivial

theorem aside_storeToken (txn : CanonicalTransaction) (token : IssuedToken) :
    (storeToken txn token).Only Aside := by
  refine Prog.Only.bind ((Prog.only_perform _ _).2 trivial) fun row => ?_
  cases row with
  | none => trivial
  | some _ => exact (Prog.only_perform _ _).2 trivial

theorem aside_recordVelocity (txn : CanonicalTransaction) : (recordVelocity txn).Only Aside :=
  Prog.Only.bind ((Prog.only_perform _ _).2 trivial) fun _ =>
    Prog.Only.bind ((Prog.only_perform _ _).2 trivial) fun _ => (Prog.only_perform _ _).2 trivial

theorem aside_createRequest (txn : CanonicalTransaction) (reasonCodes : List String) :
    (createRequest txn reasonCodes).Only Aside :=
  Prog.Only.bind ((Prog.only_perform _ _).2 (.approval _)) fun _ => trivial

theorem aside_settleReply (R : Runtime) (txn : CanonicalTransaction) (reply : ProviderReply) :
    (settleReply R txn reply).Only Aside := by
  have hstate : ∀ {α : Type} (target : PaymentState) (reference : Option Json)
      (detail : Option String) (outcome : α),
      (setState R txn.paymentAuthorizationId target reference detail true >>=
        fun _ => pure outcome : Py α).Only Aside :=
    fun target reference detail _ =>
      Prog.Only.bind (aside_setState R _ target reference detail true) fun _ => trivial
  unfold settleReply
  split
  · exact hstate _ _ _ _
  · refine Prog.Only.bind trivial fun payload => Prog.Only.bind trivial fun status => ?_
    split
    · exact Prog.Only.bind trivial fun reference => hstate _ _ _ _
    · exact Prog.Only.bind trivial fun detail => hstate _ _ _ _

/-! ## Exceptions of the audit -/

theorem raises_acquire (name : String) (token ttl n : ℕ) :
    (acquire name token ttl n).Raises (· = .timeoutError) := by
  induction n with
  | zero => rfl
  | succ n ih =>
      refine Prog.Raises.bind ((Prog.raises_perform _ _).2 trivial) fun taken => ?_
      split
      · trivial
      · exact Prog.Raises.bind ((Prog.raises_perform _ _).2 trivial) fun _ => ih

theorem raises_release (T : Exn → Prop) (name : String) (token : ℕ) :
    (release name token).Raises T :=
  Prog.Raises.bind ((Prog.raises_perform _ _).2 trivial) fun _ => trivial

theorem raises_recordEvent (R : Runtime) (f : EventFields) :
    (recordEvent R f).Raises (· = .timeoutError) := by
  have hperform : ∀ op : Op, (perform op : Py op.Val).Raises (· = .timeoutError) :=
    fun op => (Prog.raises_perform _ _).2 trivial
  refine (hperform _).bind fun eventId => (hperform _).bind fun createdAt => ?_
  refine (hperform _).bind fun token => (raises_acquire _ _ _ _).bind fun _ => ?_
  refine Prog.Raises.ensure ?_ (raises_release _ _ _)
  exact (hperform _).bind fun prev => (hperform _).bind fun _ => trivial

/-- Nothing but a failing operation comes out of a safe append. -/
theorem raises_recordEventSafe (R : Runtime) (f : EventFields) :
    (recordEventSafe R f).Raises fun _ => False := by
  refine Prog.Raises.recover (Prog.Raises.bind (raises_recordEvent R f) fun _ => trivial)
    fun e he => ?_
  subst he
  trivial

end AgentPay.Gateway
