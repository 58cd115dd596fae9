import AgentPay.Gateway.Approvals
import AgentPay.Gateway.Audit
import AgentPay.Gateway.Canonical

/-!
# The payment authorization service

The state machine of a payment, the duplicate check and the stored outcome, authorization,
submission to the provider, reconciliation and the expiry sweep. `setState` reads the row, checks
the transition and commits the new state; the read and the commit are separate steps.
-/

set_option autoImplicit false

namespace AgentPay.Gateway

open AgentPay.Library

/-! ## The state machine -/

/-- The transitions that may happen. -/
def validTransitions : PaymentState → List PaymentState
  | .created => [.authorized, .failed]
  | .authorized => [.submitted, .expired, .failed]
  | .submitted => [.confirmed, .failed, .timeout]
  | .timeout => [.unknown]
  | .unknown => [.confirmed, .failed]
  | .confirmed => []
  | .failed => []
  | .expired => []

/-- The states no transition leaves. -/
def terminal : List PaymentState := [.confirmed, .failed, .expired]

theorem validTransitions_terminal {s : PaymentState} (h : s ∈ terminal) :
    validTransitions s = [] := by
  cases s <;> first | rfl | exact absurd h (by decide)

/-- `assert_transition`. -/
def assertTransition (current target : PaymentState) : Except Exn Unit :=
  if target ∈ validTransitions current then .ok () else .error (.invalidTransition current target)

/-- `set_state`. -/
def setState (R : Runtime) (id : ℕ) (target : PaymentState) (providerReference : Option Json)
    (detail : Option String) (audit : Bool) : Py PaymentState := do
  let row ← perform (.getTransaction id)
  match row with
  | none => Prog.throw .keyError
  | some row => do
      (Prog.ret (assertTransition row.state target) : Py Unit)
      perform (.commitState id target providerReference detail)
      if audit then do
        let _ ← recordEvent R {
          eventType := "payment." ++ target.value.toLower
          paymentAuthorizationId := some id
          userId := some row.userId
          agentId := some row.agentId
          reasonCodes := ["STATE_" ++ row.state.value ++ "_TO_" ++ target.value]
          policyVersion := some row.policyVersion
          payload := .obj [
            ("from", .str row.state.value),
            ("to", .str target.value),
            ("provider_reference", providerReference.getD .null),
            ("detail", optionalStr detail),
            ("settled", .bool (decide (target = .confirmed)))] }
        pure target
      else pure target

/-! ## Duplicates and stored outcomes -/

def idemKey (userId idempotencyKey : String) : String :=
  "agentpay:idem:" ++ userId ++ ":" ++ idempotencyKey

def fingerprintKey (fingerprint : String) : String := "agentpay:fp:" ++ fingerprint

/-- The outcome of the duplicate check. -/
structure IdempotencyOutcome where
  finding : DuplicateFinding
  replayResponse : Option DecisionResponse := none
deriving DecidableEq

/-- The outcome is a conflict. -/
def IdempotencyOutcome.isConflict (o : IdempotencyOutcome) : Bool :=
  o.finding.idempotencyConflict || o.finding.fingerprintConflict

/-- The outcome a stored idempotency record gives; a value that is not a record reads as an empty
one. -/
def outcomeOfRecord (txn : CanonicalTransaction) : Stored → IdempotencyOutcome
  | .idempotencyRecord payloadHash response =>
      if payloadHash = txn.payloadHash then { finding := {}, replayResponse := some response }
      else { finding := { idempotencyConflict := true } }
  | _ => { finding := { idempotencyConflict := true } }

/-- The fingerprint slot is held by another payment. -/
def slotTaken (txn : CanonicalTransaction) : Option Stored → Bool
  | some (.paymentAuthorizationId id) => decide (id ≠ txn.paymentAuthorizationId)
  | some _ => true
  | none => false

/-- `check_duplicate`. -/
def checkDuplicate (txn : CanonicalTransaction) : Py IdempotencyOutcome := do
  let raw ← perform (.get (idemKey txn.userId txn.idempotencyKey))
  match raw with
  | some stored => pure (outcomeOfRecord txn stored)
  | none => do
      let seen ← perform (.get (fingerprintKey txn.fingerprint))
      pure { finding := { fingerprintConflict := slotTaken txn seen } }

/-- `remember_outcome`. -/
def rememberOutcome (R : Runtime) (txn : CanonicalTransaction) (response : DecisionResponse)
    (reserveFingerprint : Bool) : Py Unit := do
  perform (.set (idemKey txn.userId txn.idempotencyKey)
    (.idempotencyRecord txn.payloadHash response) R.settings.idempotencyTtlSeconds)
  if reserveFingerprint then
    perform (.set (fingerprintKey txn.fingerprint)
      (.paymentAuthorizationId txn.paymentAuthorizationId)
      (R.settings.fingerprintWindowSeconds * 2))
  else pure ()

/-! ## Persistence and authorization -/

/-- The row of a transaction under a verdict. -/
def newRow (txn : CanonicalTransaction) (verdict : PDPResult) (risk : RiskAssessment)
    (createdAt : Time) : Transaction where
  paymentAuthorizationId := txn.paymentAuthorizationId
  idempotencyKey := txn.idempotencyKey
  payloadHash := txn.payloadHash
  fingerprint := txn.fingerprint
  userId := txn.userId
  agentId := txn.agentId
  delegationId := txn.delegationId
  merchantId := txn.merchantId
  amount := hundredths txn.amount
  currency := txn.currency
  cartHash := txn.cartHash
  decision := verdict.decision
  reasonCodes := verdict.reasonCodes
  state := .created
  risk := risk
  policyVersion := verdict.policyVersion
  createdAt := createdAt

/-- `persist_transaction` in state `CREATED`. -/
def persistTransaction (txn : CanonicalTransaction) (verdict : PDPResult) (risk : RiskAssessment) :
    Py Unit := do
  let createdAt ← perform .now
  perform (.insertTransaction (newRow txn verdict risk createdAt))

/-- The token columns of the row, when there is one. -/
def storeToken (txn : CanonicalTransaction) (token : IssuedToken) : Py Unit := do
  let row ← perform (.getTransaction txn.paymentAuthorizationId)
  match row with
  | some _ => perform (.commitToken txn.paymentAuthorizationId token.jti (seconds token.expiresAt))
  | none => pure ()

/-- `authorize`. -/
def authorize (R : Runtime) (txn : CanonicalTransaction) (policyVersion : String) :
    Py IssuedToken := do
  let token ← issueAuthorizationToken R txn policyVersion
  storeToken txn token
  let _ ← setState R txn.paymentAuthorizationId .authorized none none true
  pure token

/-! ## Submission -/

/-- What the provider made of a charge. -/
structure ProviderOutcome where
  state : PaymentState
  providerReference : Option Json := none
  detail : String := ""

/-- `payload.get(key)` of a parsed body; a body that is not an object has no `get`. -/
def bodyGet (key : String) : Json → Except Exn Json
  | .obj fields => .ok ((Json.field? key fields).getD .null)
  | _ => .error .attributeError

/-- `response.json()`. -/
def parseBody (reply : ProviderReply) : Except Exn Json :=
  match reply.json with
  | some payload => .ok payload
  | none => .error .valueError

/-- `value == text`. -/
def Json.isText (text : String) : Json → Bool
  | .str s => decide (s = text)
  | _ => false

/-- `str(payload.get("detail") or payload.get("status") or "declined")[:200]`. -/
def declineDetail (R : Runtime) (detail status : Json) : String :=
  firstChars 200 (if detail.truthy then R.jsonStr detail
    else if status.truthy then R.jsonStr status else "declined")

/-- The charge the gateway asks for. -/
def chargeRequest (txn : CanonicalTransaction) : ChargeRequest where
  paymentAuthorizationId := txn.paymentAuthorizationId
  idempotencyKey := txn.idempotencyKey
  amount := txn.amount.str
  currency := txn.currency
  merchantId := txn.merchantId
  cartHash := txn.cartHash

/-- The request and its response, under `except (TimeoutException, TransportError)`: either a reply
or the detail of the transport failure. -/
def postCharge (txn : CanonicalTransaction) (token : IssuedToken) :
    Py (ProviderReply ⊕ String) :=
  Prog.recover
    (do
      perform (.sendCharge token.token (chargeRequest txn))
      let reply ← perform (.awaitCharge txn.paymentAuthorizationId)
      pure (.inl reply))
    fun e => match e.transportDetail? with
      | some detail => pure (.inr detail)
      | none => Prog.throw e

/-- The handling of a reply to a charge. -/
def settleReply (R : Runtime) (txn : CanonicalTransaction) (reply : ProviderReply) :
    Py ProviderOutcome :=
  if 400 ≤ reply.statusCode then do
    let body := firstChars 200 reply.text
    let _ ← setState R txn.paymentAuthorizationId .failed none (some body) true
    pure { state := .failed, detail := body }
  else do
    let payload ← (Prog.ret (parseBody reply) : Py Json)
    let status ← (Prog.ret (bodyGet "status" payload) : Py Json)
    if Json.isText "confirmed" status then do
      let reference ← (Prog.ret (bodyGet "provider_reference" payload) : Py Json)
      let _ ← setState R txn.paymentAuthorizationId .confirmed (some reference) none true
      pure { state := .confirmed, providerReference := some reference }
    else do
      let detailField ← (Prog.ret (bodyGet "detail" payload) : Py Json)
      let detail := declineDetail R detailField status
      let _ ← setState R txn.paymentAuthorizationId .failed none (some detail) true
      pure { state := .failed, detail }

/-- `submit` after the token was consumed. -/
def submitConsumed (R : Runtime) (txn : CanonicalTransaction) (token : IssuedToken) :
    Py ProviderOutcome := do
  let _ ← setState R txn.paymentAuthorizationId .submitted none none true
  let answer ← postCharge txn token
  match answer with
  | .inl reply => settleReply R txn reply
  | .inr failure => do
      let _ ← setState R txn.paymentAuthorizationId .timeout none (some (firstChars 200 failure))
        true
      let _ ← setState R txn.paymentAuthorizationId .unknown none
        (some "awaiting reconciliation; not treated as success") true
      pure { state := .unknown, detail := "provider timeout; reconciling" }

/-- `submit`. -/
def submit (R : Runtime) (txn : CanonicalTransaction) (token : IssuedToken) :
    Py ProviderOutcome := do
  let row ← perform (.getTransaction txn.paymentAuthorizationId)
  match row with
  | none => Prog.throw .keyError
  | some row =>
      if 1 ≤ row.tokenUses then pure { state := .failed, detail := "token already consumed" }
      else do
        perform (.commitUses txn.paymentAuthorizationId (row.tokenUses + 1))
        submitConsumed R txn token

/-! ## Reconciliation and expiry -/

/-- The counts of a reconciliation pass. -/
structure Resolved where
  confirmed : ℕ := 0
  failed : ℕ := 0
  stillUnknown : ℕ := 0
deriving DecidableEq

/-- The query for one payment, under `except httpx.HTTPError`. -/
def queryCharge (id : ℕ) : Py (Option ProviderReply) :=
  Prog.recover
    (do
      perform (.sendQuery id)
      let reply ← perform (.awaitQuery id)
      pure (some reply))
    fun e => if e.isHttpError then pure none else Prog.throw e

/-- Membership of a parsed value in a set of texts; a list or an object is unhashable. -/
def hashableIn (texts : List String) : Json → Except Exn Bool
  | .str s => .ok (decide (s ∈ texts))
  | .arr _ | .obj _ => .error .typeError
  | _ => .ok false

/-- The handling of a reply to a query. -/
def resolveReply (R : Runtime) (id : ℕ) (reply : ProviderReply) (counts : Resolved) :
    Py Resolved :=
  if reply.statusCode = 404 then do
    let _ ← setState R id .failed none (some "provider has no record; never charged") true
    pure { counts with failed := counts.failed + 1 }
  else if 400 ≤ reply.statusCode then
    pure { counts with stillUnknown := counts.stillUnknown + 1 }
  else do
    let payload ← (Prog.ret (parseBody reply) : Py Json)
    let status ← (Prog.ret (bodyGet "status" payload) : Py Json)
    if Json.isText "confirmed" status then do
      let reference ← (Prog.ret (bodyGet "provider_reference" payload) : Py Json)
      let _ ← setState R id .confirmed (some reference) (some "resolved by reconciliation") true
      pure { counts with confirmed := counts.confirmed + 1 }
    else do
      let refused ← (Prog.ret (hashableIn ["failed", "declined"] status) : Py Bool)
      if refused then do
        let _ ← setState R id .failed none (some "resolved by reconciliation") true
        pure { counts with failed := counts.failed + 1 }
      else pure { counts with stillUnknown := counts.stillUnknown + 1 }

/-- The loop of a reconciliation pass over the pending payments. -/
def reconcilePending (R : Runtime) : List (ℕ × String) → Resolved → Py Resolved
  | [], counts => pure counts
  | (id, _) :: pending, counts => do
      let reply ← queryCharge id
      match reply with
      | none => reconcilePending R pending { counts with stillUnknown := counts.stillUnknown + 1 }
      | some reply => do
          let counts ← resolveReply R id reply counts
          reconcilePending R pending counts

/-- `reconcile_unknown`. -/
def reconcileUnknown (R : Runtime) (maxAgeMinutes : ℕ) : Py Resolved := do
  let now ← perform .now
  let pending ← perform (.selectUnknown (now - seconds (60 * maxAgeMinutes)))
  reconcilePending R pending {}

/-- The loop of an expiry sweep. -/
def expireAll (R : Runtime) : List ℕ → Py Unit
  | [] => pure ()
  | id :: stale => do
      let _ ← setState R id .expired none (some "token TTL elapsed unused") true
      expireAll R stale

/-- `expire_stale_authorizations`. -/
def expireStaleAuthorizations (R : Runtime) : Py ℕ := do
  let now ← perform .now
  let stale ← perform (.selectStale now)
  expireAll R stale
  pure stale.length

end AgentPay.Gateway
