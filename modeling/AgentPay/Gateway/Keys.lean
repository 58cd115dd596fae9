import AgentPay.Gateway.Conformance

/-!
# The store keys of a request

A payment request reads and writes the shared store under five keys of its own, built from its
transaction (`CanonicalTransaction.storeKeys`), and under keys that belong to no request: the lock
of the audit chain, the windows of the edge rate limit and the approval requests. `job_touches`
is this footprint of the whole pipeline.
-/

set_option autoImplicit false

namespace AgentPay.Gateway

open AgentPay.Library

/-- The key of the shared store an operation works on. -/
def Op.storeKey? : Op → Option String
  | get key | set key _ _ | setNx key _ _ | deleteIfValue key _ | zcount key _ | zadd key _ _ _ =>
      some key
  | _ => none

/-- The keys of a request: its idempotency record and lock, its fingerprint slot and lock, and the
velocity window. -/
def CanonicalTransaction.storeKeys (txn : CanonicalTransaction) : List String :=
  [idemKey txn.userId txn.idempotencyKey, lockKey (idemLock txn),
    fingerprintKey txn.fingerprint, lockKey (fingerprintLock txn),
    velocityKey txn.userId txn.agentId]

/-- The keys that belong to no payment request. -/
inductive CommonKey : String → Prop
  | auditLock : CommonKey (lockKey "audit_chain")
  | approval (id : ℕ) : CommonKey (approvalKey id)
  | agentWindow (agentId : String) : CommonKey ("agentpay:rl:agent:" ++ agentId)
  | delegationWindow (delegationId : String) : CommonKey ("agentpay:rl:deleg:" ++ delegationId)

/-- The store key of an operation, if it has one, lies in a set of keys. -/
def OnKeys (A : String → Prop) (op : Op) : Prop := ∀ key ∈ op.storeKey?, A key

theorem onKeys_free (A : String → Prop) {op : Op} (h : op.storeKey? = none) : OnKeys A op := by
  intro key hkey
  rw [h] at hkey
  cases hkey

theorem onKeys_of_mem {A : String → Prop} {op : Op} {key : String} (h : op.storeKey? = some key)
    (hA : A key) : OnKeys A op := by
  intro key' hkey
  rw [h] at hkey
  exact Option.some.inj hkey ▸ hA

section Footprint

variable {A : String → Prop}

/-- One operation without a key in front of a program. -/
theorem only_free_bind {α : Type} {op : Op} {f : op.Val → Py α} (h : op.storeKey? = none)
    (hf : ∀ a, (f a).Only (OnKeys A)) : (perform op >>= f).Only (OnKeys A) :=
  Prog.Only.bind ((Prog.only_perform _ _).2 (onKeys_free A h)) hf

/-- One operation on a key of the footprint in front of a program. -/
theorem only_keyed_bind {α : Type} {op : Op} {key : String} {f : op.Val → Py α}
    (h : op.storeKey? = some key) (hA : A key) (hf : ∀ a, (f a).Only (OnKeys A)) :
    (perform op >>= f).Only (OnKeys A) :=
  Prog.Only.bind ((Prog.only_perform _ _).2 (onKeys_of_mem h hA)) hf

theorem keys_acquire {name : String} (hA : A (lockKey name)) (token ttl n : ℕ) :
    (acquire name token ttl n).Only (OnKeys A) := by
  induction n with
  | zero => trivial
  | succ n ih =>
      refine only_keyed_bind rfl hA fun taken => ?_
      split
      · trivial
      · exact only_free_bind rfl fun _ => ih

theorem keys_withLock {α : Type} {name : String} (hA : A (lockKey name)) (ttl : ℕ) {body : Py α}
    (h : body.Only (OnKeys A)) : (withLock name ttl body).Only (OnKeys A) := by
  refine only_free_bind rfl fun token => ?_
  refine Prog.Only.bind (keys_acquire hA _ _ _) fun _ => h.ensure ?_
  exact only_keyed_bind rfl hA fun _ => trivial

theorem keys_zcountWindow {key : String} (hA : A key) (window : ℕ) :
    (zcountWindow key window).Only (OnKeys A) :=
  only_free_bind rfl fun _ => (Prog.only_perform _ _).2 (onKeys_of_mem rfl hA)

theorem keys_zaddWindow {key : String} (hA : A key) (window : ℕ) :
    (zaddWindow key window).Only (OnKeys A) :=
  only_free_bind rfl fun _ => only_free_bind rfl fun _ =>
    (Prog.only_perform _ _).2 (onKeys_of_mem rfl hA)

section Common

variable (hcommon : ∀ key, CommonKey key → A key)

include hcommon

theorem keys_recordEvent (R : Runtime) (f : EventFields) : (recordEvent R f).Only (OnKeys A) := by
  refine only_free_bind rfl fun eventId => only_free_bind rfl fun createdAt => ?_
  refine keys_withLock (hcommon _ .auditLock) _ ?_
  exact only_free_bind rfl fun prev => only_free_bind rfl fun _ => trivial

theorem keys_recordEventSafe (R : Runtime) (f : EventFields) :
    (recordEventSafe R f).Only (OnKeys A) := by
  refine Prog.Only.recover (Prog.Only.bind (keys_recordEvent hcommon R f) fun _ => trivial)
    fun e => ?_
  split <;> trivial

theorem keys_enforceEdgeRateLimit (R : Runtime) (agentId delegationId : String) :
    (enforceEdgeRateLimit R agentId delegationId).Only (OnKeys A) := by
  have hcheck : ∀ key limit scope, A key → (checkCeiling key limit scope).Only (OnKeys A) := by
    intro key limit scope hkey
    unfold checkCeiling
    split
    · refine Prog.Only.bind (keys_zcountWindow hkey _) fun n => ?_
      split <;> trivial
    · trivial
  have hrecord : ∀ key limit, A key → (recordRequest key limit).Only (OnKeys A) := by
    intro key limit hkey
    unfold recordRequest
    split
    · exact Prog.Only.bind (keys_zaddWindow hkey _) fun _ => trivial
    · trivial
  have hagent := hcommon _ (.agentWindow agentId)
  have hdelegation := hcommon _ (.delegationWindow delegationId)
  unfold enforceEdgeRateLimit
  split
  · refine Prog.Only.recover ?_ fun e => by cases e <;> trivial
    refine Prog.Only.bind (hcheck _ _ _ hagent) fun _ => ?_
    refine Prog.Only.bind (hcheck _ _ _ hdelegation) fun _ => ?_
    exact Prog.Only.bind (hrecord _ _ hagent) fun _ => hrecord _ _ hdelegation
  · trivial

theorem keys_blockedBeforePipeline (R : Runtime) (intent : PaymentIntent)
    (reasonCodes : List String) (message stage : String) :
    (blockedBeforePipeline R intent reasonCodes message stage).Only (OnKeys A) := by
  refine only_free_bind rfl fun id => ?_
  refine Prog.Only.bind (keys_recordEventSafe hcommon R _) fun _ => ?_
  exact only_free_bind rfl fun _ => trivial

theorem keys_setState (R : Runtime) (id : ℕ) (target : PaymentState) (reference : Option Json)
    (detail : Option String) (audit : Bool) :
    (setState R id target reference detail audit).Only (OnKeys A) := by
  refine only_free_bind rfl fun row => ?_
  cases row with
  | none => trivial
  | some row =>
      refine Prog.Only.bind trivial fun _ => only_free_bind rfl fun _ => ?_
      split
      · exact Prog.Only.bind (keys_recordEvent hcommon R _) fun _ => trivial
      · trivial

theorem keys_authorize (R : Runtime) (txn : CanonicalTransaction) (policyVersion : String) :
    (authorize R txn policyVersion).Only (OnKeys A) := by
  refine Prog.Only.bind ?_ fun token => Prog.Only.bind ?_ fun _ => ?_
  · refine only_free_bind rfl fun _ => only_free_bind rfl fun _ => ?_
    exact only_free_bind rfl fun _ => trivial
  · refine only_free_bind rfl fun row => ?_
    cases row with
    | none => trivial
    | some _ => exact (Prog.only_perform _ _).2 (onKeys_free A rfl)
  · exact Prog.Only.bind (keys_setState hcommon R _ _ _ _ _) fun _ => trivial

theorem keys_settleReply (R : Runtime) (txn : CanonicalTransaction) (reply : ProviderReply) :
    (settleReply R txn reply).Only (OnKeys A) := by
  have hstate : ∀ {α : Type} (target : PaymentState) (reference : Option Json)
      (detail : Option String) (outcome : α),
      (setState R txn.paymentAuthorizationId target reference detail true >>=
        fun _ => pure outcome : Py α).Only (OnKeys A) :=
    fun target reference detail _ =>
      Prog.Only.bind (keys_setState hcommon R _ target reference detail true) fun _ => trivial
  unfold settleReply
  split
  · exact hstate _ _ _ _
  · refine Prog.Only.bind trivial fun payload => Prog.Only.bind trivial fun status => ?_
    split
    · exact Prog.Only.bind trivial fun reference => hstate _ _ _ _
    · exact Prog.Only.bind trivial fun detail => hstate _ _ _ _

theorem keys_submit (R : Runtime) (txn : CanonicalTransaction) (token : IssuedToken) :
    (submit R txn token).Only (OnKeys A) := by
  refine only_free_bind rfl fun row => ?_
  cases row with
  | none => trivial
  | some row =>
      simp only
      split
      · trivial
      · refine only_free_bind rfl fun _ => ?_
        refine Prog.Only.bind (keys_setState hcommon R _ _ _ _ _) fun _ => ?_
        refine Prog.Only.bind (Prog.Only.recover ?_ fun e => ?_) fun answer => ?_
        · exact only_free_bind rfl fun _ => only_free_bind rfl fun _ => trivial
        · split <;> trivial
        · cases answer with
          | inl reply => exact keys_settleReply hcommon R txn reply
          | inr failure =>
              refine Prog.Only.bind (keys_setState hcommon R _ _ _ _ _) fun _ => ?_
              exact Prog.Only.bind (keys_setState hcommon R _ _ _ _ _) fun _ => trivial

/-! ### The critical section -/

variable {txn : CanonicalTransaction} (htxn : ∀ key ∈ txn.storeKeys, A key)

include htxn

omit hcommon in
theorem keys_checkDuplicate : (checkDuplicate txn).Only (OnKeys A) := by
  have hidem : A (idemKey txn.userId txn.idempotencyKey) :=
    htxn _ (by simp [CanonicalTransaction.storeKeys])
  have hslot : A (fingerprintKey txn.fingerprint) :=
    htxn _ (by simp [CanonicalTransaction.storeKeys])
  refine only_keyed_bind rfl hidem fun raw => ?_
  cases raw with
  | some stored => trivial
  | none => exact only_keyed_bind rfl hslot fun _ => trivial

theorem keys_concludeRequest (R : Runtime) (outcome : IdempotencyOutcome) (verdict : PDPResult)
    (event : EventFields) (response : DecisionResponse) :
    (concludeRequest R txn outcome verdict event response).Only (OnKeys A) := by
  have hidem : A (idemKey txn.userId txn.idempotencyKey) :=
    htxn _ (by simp [CanonicalTransaction.storeKeys])
  have hslot : A (fingerprintKey txn.fingerprint) :=
    htxn _ (by simp [CanonicalTransaction.storeKeys])
  refine Prog.Only.bind (keys_recordEventSafe hcommon R _) fun logged => ?_
  simp only
  split
  · refine Prog.Only.bind (only_keyed_bind rfl hidem fun _ => ?_) fun _ => trivial
    split
    · exact (Prog.only_perform _ _).2 (onKeys_of_mem rfl hslot)
    · trivial
  · trivial

theorem keys_finish (R : Runtime) (verdict : PDPResult) (response : DecisionResponse)
    (execute : Bool) : (finish R txn verdict response execute).Only (OnKeys A) := by
  have hvelocity : A (velocityKey txn.userId txn.agentId) :=
    htxn _ (by simp [CanonicalTransaction.storeKeys])
  unfold finish
  cases verdict.decision with
  | block => exact Prog.Only.bind (keys_setState hcommon R _ _ _ _ _) fun _ => trivial
  | requireApproval =>
      refine Prog.Only.bind ?_ fun _ => trivial
      exact only_keyed_bind rfl (hcommon _ (.approval _)) fun _ => trivial
  | allow =>
      refine Prog.Only.bind (keys_zaddWindow hvelocity _) fun _ => ?_
      refine Prog.Only.bind (keys_authorize hcommon R txn _) fun token => ?_
      simp only
      split
      · exact Prog.Only.bind (keys_submit hcommon R txn token) fun _ => trivial
      · trivial

theorem keys_enforce (R : Runtime) (userId : String) (execute : Bool)
    (outcome : IdempotencyOutcome) : (enforce R txn userId execute outcome).Only (OnKeys A) := by
  have hvelocity : A (velocityKey txn.userId txn.agentId) :=
    htxn _ (by simp [CanonicalTransaction.storeKeys])
  refine only_free_bind rfl fun analysis => ?_
  refine Prog.Only.bind ?_ fun ctx => Prog.Only.bind ?_ fun approval => ?_
  · refine only_free_bind rfl fun _ => only_free_bind rfl fun _ => only_free_bind rfl fun _ => ?_
    refine only_free_bind rfl fun _ => only_free_bind rfl fun _ => ?_
    exact Prog.Only.bind (keys_zcountWindow hvelocity _) fun _ => trivial
  · unfold evaluateToken
    split
    · trivial
    · trivial
    · refine only_free_bind rfl fun genuine => only_free_bind rfl fun now => ?_
      split
      · split
        · trivial
        · split <;> trivial
      · trivial
  · refine only_free_bind rfl fun answer => only_free_bind rfl fun createdAt => ?_
    refine Prog.Only.bind ?_ fun _ => ?_
    · exact only_free_bind rfl fun _ => (Prog.only_perform _ _).2 (onKeys_free A rfl)
    · refine Prog.Only.bind (keys_finish hcommon htxn R _ _ execute) fun response => ?_
      exact keys_concludeRequest hcommon htxn R outcome _ _ response

theorem keys_criticalSection (R : Runtime) (userId : String) (execute : Bool) :
    (withLock (idemLock txn) R.settings.lockTtlSeconds
      (withLock (fingerprintLock txn) fingerprintLockTtl
        (runPipeline R txn userId execute))).Only (OnKeys A) := by
  have hidem : A (lockKey (idemLock txn)) := htxn _ (by simp [CanonicalTransaction.storeKeys])
  have hslot : A (lockKey (fingerprintLock txn)) :=
    htxn _ (by simp [CanonicalTransaction.storeKeys])
  refine keys_withLock hidem _ (keys_withLock hslot _ ?_)
  refine Prog.Only.bind (keys_checkDuplicate htxn) fun outcome => ?_
  split
  · exact Prog.Only.bind (keys_recordEventSafe hcommon R _) fun _ => trivial
  · exact keys_enforce hcommon htxn R userId execute outcome

end Common

end Footprint

/-! ## A whole request -/

/-- The identity an intent claims. -/
def PaymentIntent.claimedIdentity (intent : PaymentIntent) : AgentIdentity :=
  ⟨intent.agentId, intent.userId, intent.delegationId, []⟩

/-- The keys of a request whose fingerprint reads the clock at `timestamp`. -/
def requestKeys (R : Runtime) (intent : PaymentIntent) (timestamp : Time) : List String :=
  (buildCanonical R intent (PaymentIntent.claimedIdentity intent) 0 timestamp).storeKeys

/-- The keys do not depend on the rest of the identity. -/
theorem storeKeys_buildCanonical (R : Runtime) {intent : PaymentIntent} {identity : AgentIdentity}
    (huser : identity.userId = intent.userId) (hagent : identity.agentId = intent.agentId) (id : ℕ)
    (timestamp : Time) : (buildCanonical R intent identity id timestamp).storeKeys =
      requestKeys R intent timestamp := by
  simp only [requestKeys, CanonicalTransaction.storeKeys, buildCanonical, idemLock, fingerprintLock,
    PaymentIntent.claimedIdentity, huser, hagent]

/-- The keys a request may work on. -/
def Touches (R : Runtime) (intent : PaymentIntent) (key : String) : Prop :=
  CommonKey key ∨ ∃ timestamp, key ∈ requestKeys R intent timestamp

/-- The protocol of a request's footprint; a job that is no payment request is unconstrained. -/
def footprint (R : Runtime) : Protocol Op Op.Val Exn (Option PaymentIntent) where
  guard s op := ∀ intent ∈ s, OnKeys (Touches R intent) op
  next s _ _ := s

/-- The intent of a payment request. -/
def Job.intent? : Job → Option PaymentIntent
  | paymentIntent intent _ _ => some intent
  | _ => none

section Request

variable {R : Runtime} {intent : PaymentIntent}

theorem footprint_of_only {α : Type} {p : Py α} (h : p.Only (OnKeys (Touches R intent))) :
    p.Follows (footprint R) (some intent) (fun _ s => s = some intent) := by
  refine Prog.Follows.of_only_still (fun op hop => ⟨fun i hi => ?_, fun _ => rfl⟩) h
  rwa [Option.some.inj hi] at hop

theorem footprint_authenticate (credential : Credential) :
    (authenticate credential intent).Follows (footprint R) (some intent) (fun r s =>
      s = some intent ∧ ∀ identity, r = .ok identity →
        identity.userId = intent.userId ∧ identity.agentId = intent.agentId) := by
  have hfree : ∀ op : Op, op.storeKey? = none → (footprint R).guard (some intent) op :=
    fun op hop _ _ => onKeys_free _ hop
  have herror : ∀ (e : Exn) (identity : AgentIdentity), (.error e : Except Exn AgentIdentity) =
      .ok identity → identity.userId = intent.userId ∧ identity.agentId = intent.agentId :=
    fun e identity h => nomatch h
  refine Prog.Follows.perform (hfree _ rfl) (fun now => ?_) fun e => ⟨rfl, herror e⟩
  cases decodeDelegationToken now credential with
  | error e => exact ⟨rfl, herror e⟩
  | ok identity =>
      change Prog.Follows (footprint R) (if _ then _ else _) _ _
      by_cases hm : bindingMismatches identity intent = []
      · rw [if_neg (not_not.2 hm)]
        split
        · exact ⟨rfl, herror _⟩
        · have hrevoked : (assertNotRevoked identity.delegationId).Only
              (OnKeys (Touches R intent)) := by
            refine Prog.Only.bind (Prog.Only.recover
              ((Prog.only_perform _ _).2 (onKeys_free _ rfl)) fun e => ?_) fun revoked => ?_ <;>
              split <;> trivial
          refine (footprint_of_only hrevoked).bind (fun _ s hs => ⟨hs, ?_⟩) fun e s hs =>
            ⟨hs, herror e⟩
          intro identity' h
          cases h
          exact eq_of_bindingMismatches hm
      · rw [if_pos hm]
        exact ⟨rfl, herror _⟩

theorem keys_admission {identity : AgentIdentity} (huser : identity.userId = intent.userId)
    (hagent : identity.agentId = intent.agentId) (execute : Bool) :
    (admission R intent identity execute).Only (OnKeys (Touches R intent)) := by
  have hcommon : ∀ key, CommonKey key → Touches R intent key := fun _ => .inl
  refine Prog.Only.bind (keys_enforceEdgeRateLimit hcommon R _ _).attempt fun admitted => ?_
  cases admitted with
  | ok _ =>
      refine only_free_bind rfl fun id => only_free_bind rfl fun timestamp => ?_
      have htxn : ∀ key ∈ (buildCanonical R intent identity id timestamp).storeKeys,
          Touches R intent key :=
        fun key hkey => .inr ⟨timestamp, storeKeys_buildCanonical R huser hagent id timestamp ▸ hkey⟩
      refine Prog.Only.recover (keys_criticalSection hcommon htxn R _ execute) fun e => ?_
      cases e with
      | timeoutError => exact only_free_bind rfl fun _ => trivial
      | _ => trivial
  | error e =>
      cases e with
      | rateLimitError scope limit => exact keys_blockedBeforePipeline hcommon R intent _ _ _
      | _ => trivial

end Request

/-- **A request works on its own keys and on those that belong to no request.** -/
theorem job_touches (R : Runtime) (job : Job) :
    (job.start R).Follows (footprint R) job.intent? (fun _ _ => True) := by
  have hfree : ∀ p : Py Response, p.Follows (footprint R) none (fun _ _ => True) := by
    intro p
    induction p with
    | ret r => trivial
    | call op next ih =>
        refine ⟨fun _ hi => ?_, ih⟩
        cases hi
  cases job with
  | paymentIntent intent credential execute =>
      have hcommon : ∀ key, CommonKey key → Touches R intent key := fun _ => .inl
      refine (Prog.follows_recover _ _ _ _).2 ((Prog.follows_bind _ _ _ _).2 ?_)
      refine Prog.Follows.mono (Q := fun _ s => s = some intent) ?_ fun r s hs => ?_
      · rw [createPaymentIntent, Prog.follows_bind, Prog.follows_attempt]
        refine (footprint_authenticate credential).mono fun r s h => ?_
        obtain ⟨rfl, hr⟩ := h
        cases r with
        | error e =>
            cases e with
            | identityError reasonCode message =>
                exact footprint_of_only (keys_blockedBeforePipeline hcommon R intent _ _ _)
            | _ => rfl
        | ok identity =>
            obtain ⟨huser, hagent⟩ := hr identity rfl
            exact footprint_of_only (keys_admission huser hagent execute)
      · subst hs
        cases r with
        | ok a => trivial
        | error e =>
            change Prog.Follows _ (if _ then _ else _) _ _
            split <;> trivial
  | _ => exact hfree _

/-! ## Families of keys -/

/-- The character of a key that tells its family. -/
def family (key : String) : Option Char := key.toList[9]?

/-- The character of the key of a lock that tells its kind. -/
def lockFamily (key : String) : Option Char := key.toList[14]?

/-- A character of a literal is one of every text it begins. -/
theorem getElem?_of_literal {literal : String} {n : ℕ} {c : Char}
    (h : literal.toList[n]? = some c) (rest : String) : (literal ++ rest).toList[n]? = some c := by
  rw [String.toList_append, List.getElem?_append_left (List.getElem?_eq_some_iff.1 h).1, h]

theorem family_idemKey (userId key : String) : family (idemKey userId key) = some 'i' := by
  simp only [family, idemKey, String.append_assoc]
  exact getElem?_of_literal rfl _

theorem family_fingerprintKey (fingerprint : String) :
    family (fingerprintKey fingerprint) = some 'f' := by
  rw [family, fingerprintKey]
  exact getElem?_of_literal rfl _

theorem family_velocityKey (userId agentId : String) :
    family (velocityKey userId agentId) = some 'v' := by
  unfold family velocityKey
  simp only [String.append_assoc]
  exact getElem?_of_literal rfl _

theorem family_lockKey (name : String) : family (lockKey name) = some 'l' := by
  rw [family, lockKey]
  exact getElem?_of_literal rfl _

theorem lockFamily_lockKey {name : String} {c : Char} (h : name.toList[0]? = some c) :
    lockFamily (lockKey name) = some c := by
  rw [lockFamily, lockKey, String.toList_append,
    List.getElem?_append_right (show "agentpay:lock:".toList.length ≤ 14 from Nat.le_refl 14)]
  exact h

theorem lockFamily_idemLock (txn : CanonicalTransaction) :
    lockFamily (lockKey (idemLock txn)) = some 'i' := by
  refine lockFamily_lockKey ?_
  simp only [idemLock, String.append_assoc]
  exact getElem?_of_literal rfl _

theorem lockFamily_fingerprintLock (txn : CanonicalTransaction) :
    lockFamily (lockKey (fingerprintLock txn)) = some 'f' := by
  refine lockFamily_lockKey ?_
  simp only [fingerprintLock, String.append_assoc]
  exact getElem?_of_literal rfl _

/-- The keys of a request belong to one. -/
theorem not_commonKey {txn : CanonicalTransaction} {key : String} (h : key ∈ txn.storeKeys) :
    ¬ CommonKey key := by
  intro hcommon
  have hfamily : family key = some 'l' ∧ lockFamily key = some 'a' ∨
      family key = some 'a' ∨ family key = some 'r' := by
    cases hcommon with
    | auditLock => exact .inl ⟨family_lockKey _, lockFamily_lockKey rfl⟩
    | approval id => exact .inr (.inl (getElem?_of_literal rfl _))
    | agentWindow agentId => exact .inr (.inr (getElem?_of_literal rfl _))
    | delegationWindow delegationId => exact .inr (.inr (getElem?_of_literal rfl _))
  simp only [CanonicalTransaction.storeKeys, List.mem_cons, List.not_mem_nil, or_false] at h
  rcases h with rfl | rfl | rfl | rfl | rfl
  · simp [family_idemKey] at hfamily
  · simp [family_lockKey, lockFamily_idemLock] at hfamily
  · simp [family_fingerprintKey] at hfamily
  · simp [family_lockKey, lockFamily_fingerprintLock] at hfamily
  · simp [family_velocityKey] at hfamily

/-- Two requests share a key only within one of the five kinds. -/
theorem shared_kind {txn txn' : CanonicalTransaction} {key : String} (h : key ∈ txn.storeKeys)
    (h' : key ∈ txn'.storeKeys) :
    idemKey txn.userId txn.idempotencyKey = idemKey txn'.userId txn'.idempotencyKey ∨
    idemLock txn = idemLock txn' ∨
    fingerprintKey txn.fingerprint = fingerprintKey txn'.fingerprint ∨
    fingerprintLock txn = fingerprintLock txn' ∨
    velocityKey txn.userId txn.agentId = velocityKey txn'.userId txn'.agentId := by
  have hlock : ∀ {name name' : String}, lockKey name = lockKey name' → name = name' := by
    intro name name' heq
    rwa [lockKey, lockKey, String.append_right_inj] at heq
  simp only [CanonicalTransaction.storeKeys, List.mem_cons, List.not_mem_nil, or_false] at h h'
  have hapart : ∀ {a b : String}, family a ≠ family b ∨ lockFamily a ≠ lockFamily b → a ≠ b := by
    rintro a b (hab | hab) rfl
    · exact hab rfl
    · exact hab rfl
  rcases h with rfl | rfl | rfl | rfl | rfl <;> rcases h' with h' | h' | h' | h' | h' <;> first
    | exact .inl h'
    | exact .inr (.inl (hlock h'))
    | exact .inr (.inr (.inl h'))
    | exact .inr (.inr (.inr (.inl (hlock h'))))
    | exact .inr (.inr (.inr (.inr h')))
    | exact absurd h' (hapart (by simp [family_idemKey, family_lockKey, family_fingerprintKey,
        family_velocityKey, lockFamily_idemLock, lockFamily_fingerprintLock]))

/-! ## Worlds that agree on some keys -/

/-- The clocks agree, and so do the values of the keys of a set. -/
structure AgreesOn (A : String → Prop) (w w' : World) : Prop where
  clock : w.clock = w'.clock
  kv : ∀ key, A key → w.kv.lookup key = w'.kv.lookup key
  zsets : ∀ key, A key → w.zsets.lookup key = w'.zsets.lookup key

namespace AgreesOn

variable {A : String → Prop} {w w' : World}

theorem refl (A : String → Prop) (w : World) : AgreesOn A w w :=
  ⟨rfl, fun _ _ => rfl, fun _ _ => rfl⟩

theorem lookup (h : AgreesOn A w w') {key : String} (hA : A key) : w.lookup key = w'.lookup key := by
  rw [World.lookup, World.lookup, h.kv key hA, h.clock]

theorem zmembers (h : AgreesOn A w w') {key : String} (hA : A key) :
    w.zmembers key = w'.zmembers key := by
  rw [World.zmembers, World.zmembers, h.zsets key hA, h.clock]

/-- An operation on a key outside the set changes nothing in it. -/
theorem apply_other (w : World) {op : Op} (h : OnKeys (fun key => ¬ A key) op) :
    AgreesOn A (w.apply op) w := by
  have hne : ∀ {key key' : String}, op.storeKey? = some key → A key' → key' ≠ key := by
    rintro key key' hkey hA rfl
    exact h _ hkey hA
  cases op
  case set key value ex =>
      exact ⟨rfl, fun k hk => lookup_putKey_of_ne (hne rfl hk) _ _, fun _ _ => rfl⟩
  case setNx key token ex =>
      simp only [World.apply]
      split
      · exact refl A w
      · exact ⟨rfl, fun k hk => lookup_putKey_of_ne (hne rfl hk) _ _, fun _ _ => rfl⟩
  case deleteIfValue key token =>
      simp only [World.apply]
      split
      · exact ⟨rfl, fun k hk => lookup_removeKey_of_ne (hne rfl hk) _, fun _ _ => rfl⟩
      · exact refl A w
  case zadd key window now member =>
      exact ⟨rfl, fun _ _ => rfl, fun k hk => lookup_putKey_of_ne (hne rfl hk) _ _⟩
  all_goals first
    | exact refl A w
    | exact ⟨rfl, fun _ _ => rfl, fun _ _ => rfl⟩
    | (simp only [World.apply]; split <;> exact ⟨rfl, fun _ _ => rfl, fun _ _ => rfl⟩)

theorem trans {w'' : World} (h : AgreesOn A w w') (h' : AgreesOn A w' w'') : AgreesOn A w w'' :=
  ⟨h.clock.trans h'.clock, fun k hk => (h.kv k hk).trans (h'.kv k hk),
    fun k hk => (h.zsets k hk).trans (h'.zsets k hk)⟩

theorem symm (h : AgreesOn A w w') : AgreesOn A w' w :=
  ⟨h.clock.symm, fun k hk => (h.kv k hk).symm, fun k hk => (h.zsets k hk).symm⟩

/-- The same entry for a key of both worlds. -/
theorem putKey_congr {α : Type} {l l' : List (String × α)}
    (h : ∀ key, A key → l.lookup key = l'.lookup key) (key : String) (a : α) (key' : String)
    (hA : A key') : (putKey key a l).lookup key' = (putKey key a l').lookup key' := by
  by_cases hkey : key' = key
  · rw [hkey, lookup_putKey_self, lookup_putKey_self]
  · rw [lookup_putKey_of_ne hkey, lookup_putKey_of_ne hkey, h key' hA]

theorem removeKey_congr {α : Type} {l l' : List (String × α)}
    (h : ∀ key, A key → l.lookup key = l'.lookup key) (key key' : String) (hA : A key') :
    (removeKey key l).lookup key' = (removeKey key l').lookup key' := by
  by_cases hkey : key' = key
  · rw [hkey, lookup_removeKey_self, lookup_removeKey_self]
  · rw [lookup_removeKey_of_ne hkey, lookup_removeKey_of_ne hkey, h key' hA]

/-- An operation in both worlds. -/
theorem apply (h : AgreesOn A w w') (op : Op) : AgreesOn A (w.apply op) (w'.apply op) := by
  by_cases hin : OnKeys (fun key => ¬ A key) op
  · exact (apply_other w hin).trans (h.trans (apply_other w' hin).symm)
  · -- the key lies in the set, so the worlds agree on what the operation reads
    have hkey : ∀ {key : String}, op.storeKey? = some key → A key := by
      intro key hk
      by_contra hA
      exact hin (onKeys_of_mem hk hA)
    cases op
    case set key value ex =>
        refine ⟨h.clock, ?_, h.zsets⟩
        simp only [World.apply, h.clock]
        exact putKey_congr h.kv key _
    case setNx key token ex =>
        simp only [World.apply, h.lookup (hkey rfl)]
        split
        · exact h
        · refine ⟨h.clock, ?_, h.zsets⟩
          simp only [h.clock]
          exact putKey_congr h.kv key _
    case deleteIfValue key token =>
        simp only [World.apply, h.lookup (hkey rfl)]
        split
        · exact ⟨h.clock, removeKey_congr h.kv key, h.zsets⟩
        · exact h
    case zadd key window now member =>
        refine ⟨h.clock, h.kv, ?_⟩
        simp only [World.apply, h.clock, h.zmembers (hkey rfl)]
        exact putKey_congr h.zsets key _
    case get key => exact h
    case zcount key since => exact h
    all_goals exact absurd (onKeys_free _ rfl) hin

/-- Whether an operation is possible does not depend on the world. -/
theorem isSome_answer (w w' : World) (op : Op) (o : Outcome) :
    (w.answer op o).isSome = (w'.answer op o).isSome := by
  cases o
  case ok => cases op <;> rfl
  all_goals cases op <;> rfl

/-- The world after an operation. -/
theorem perform (h : AgreesOn A w w') (op : Op) (o : Outcome) :
    AgreesOn A (((w.perform op o).map Prod.fst).getD w)
      (((w'.perform op o).map Prod.fst).getD w') := by
  have hanswer := isSome_answer w w' op o
  unfold World.perform
  split
  · split
    · exact h
    · split
      · exact h.apply op
      · exact h
  · cases ha : w.answer op o <;> cases ha' : w'.answer op o
    · exact h
    · rw [ha, ha'] at hanswer
      cases hanswer
    · rw [ha, ha'] at hanswer
      cases hanswer
    · exact h.apply op

/-- A deed of both worlds. -/
theorem after (R : Runtime) (h : AgreesOn A w w') (deed : Machine.Deed Env Outcome Op Op.Val Exn) :
    AgreesOn A ((machine R).after w deed) ((machine R).after w' deed) := by
  cases deed with
  | act env =>
      cases env
      case tick d => exact ⟨congrArg (· + d) h.clock, h.kv, h.zsets⟩
      case loseKey key =>
          exact ⟨h.clock, removeKey_congr h.kv key, removeKey_congr h.zsets key⟩
      all_goals exact ⟨h.clock, h.kv, h.zsets⟩
  | did ev => exact h.perform ev.op ev.choice

/-- A deed of one world only, on a key outside the set. -/
theorem after_left (R : Runtime) (h : AgreesOn A w w') {ev : Event}
    (hev : OnKeys (fun key => ¬ A key) ev.op) :
    AgreesOn A ((machine R).after w (.did ev)) w' := by
  refine trans ?_ h
  have hstep : ∀ {v}, ((w.perform ev.op ev.choice).map Prod.fst).getD w = v → AgreesOn A v w := by
    rintro v rfl
    cases hp : w.perform ev.op ev.choice with
    | none => exact refl A w
    | some p =>
        rcases World.perform_world hp with heq | heq
        · simp only [Option.map_some, Option.getD_some, heq]
          exact apply_other w hev
        · simp only [Option.map_some, Option.getD_some, heq]
          exact refl A w
  exact hstep rfl

/-- An operation on a key of the set is answered alike. -/
theorem answer_eq (h : AgreesOn A w w') {op : Op} {key : String} (hkey : op.storeKey? = some key)
    (hA : A key) (o : Outcome) :
    (w.perform op o).map Prod.snd = (w'.perform op o).map Prod.snd := by
  have hlookup := h.lookup hA
  have hmembers := h.zmembers hA
  cases op <;> simp only [Op.storeKey?, Option.some.injEq, reduceCtorEq] at hkey <;> subst hkey <;>
    cases o <;> first
      | rfl
      | simp only [World.perform, World.answer, World.value, Option.map_some, hlookup, hmembers]

end AgreesOn

end AgentPay.Gateway
