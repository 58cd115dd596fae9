import AgentPay.Gateway.Context
import AgentPay.Gateway.Identity
import AgentPay.Gateway.Payments

/-!
# The enforcement pipeline and its machine

The handlers of the payment-intent, grant and reconciliation endpoints, the handler of unhandled
exceptions, and the machine that interleaves any number of them over one world.
-/

set_option autoImplicit false

namespace AgentPay.Gateway

open AgentPay.Library

def emptyRisk (policyVersion : String) : RiskAssessment where
  signals := {}
  weightedScore := 0
  policyVersionContext := policyVersion

/-- `_blocked_before_pipeline`. -/
def blockedBeforePipeline (R : Runtime) (intent : PaymentIntent) (reasonCodes : List String)
    (message stage : String) : Py DecisionResponse := do
  let id ← perform .uuid4
  let (eventId, eventHash) ← recordEventSafe R {
    eventType := "decision.block"
    paymentAuthorizationId := some id
    userId := some intent.userId
    agentId := some intent.agentId
    decision := some Decision.block.value
    reasonCodes
    policyVersion := some R.settings.policyVersion
    payload := .obj [("stage", .str stage), ("message", .str message)] }
  let createdAt ← perform .now
  pure {
    paymentAuthorizationId := id
    decision := .block
    reasonCodes
    state := .failed
    risk := emptyRisk R.settings.policyVersion
    policyVersion := R.settings.policyVersion
    auditEventId := eventId
    auditHash := eventHash
    createdAt
    message }

/-- The answer of an idempotent replay. -/
def replay (R : Runtime) (txn : CanonicalTransaction) (stored : DecisionResponse) :
    Py DecisionResponse := do
  let _ ← recordEventSafe R {
    eventType := "decision.idempotent_replay"
    paymentAuthorizationId := some stored.paymentAuthorizationId
    userId := some txn.userId
    agentId := some txn.agentId
    decision := some stored.decision.value
    reasonCodes := ["IDEMPOTENT_REPLAY"]
    policyVersion := some R.settings.policyVersion
    payload := .obj [("idempotency_key", .str txn.idempotencyKey)] }
  pure { stored with
    replayed := true
    message := "idempotent replay: identical stored response returned" }

/-- The credential of an authorized transaction in the response. -/
def responseToken (txn : CanonicalTransaction) (token : IssuedToken) (policyVersion : String) :
    AuthorizationToken where
  token := token.token
  paymentAuthorizationId := txn.paymentAuthorizationId
  merchantId := txn.merchantId
  amount := txn.amount
  currency := txn.currency
  cartHash := txn.cartHash
  expiresAt := seconds token.expiresAt
  policyVersion := policyVersion

/-- A reference as the response carries it. -/
def referenceText : Option Json → Option String
  | some (.str s) => some s
  | _ => none

/-- The response to a submitted payment. -/
def withOutcome (response : DecisionResponse) (provider : ProviderOutcome) : DecisionResponse :=
  { response with
    state := provider.state
    providerReference := referenceText provider.providerReference
    message :=
      if provider.state = .unknown then
        "provider did not respond; payment is UNKNOWN and queued for " ++
          "reconciliation. This is not a success."
      else if provider.detail = "" then "payment confirmed" else provider.detail }

/-- Stage 6 for a blocked transaction. -/
def finishBlocked (R : Runtime) (txn : CanonicalTransaction) (verdict : PDPResult)
    (response : DecisionResponse) : Py DecisionResponse := do
  let _ ← setState R txn.paymentAuthorizationId .failed none
    (some (firstChars 200 ("; ".intercalate verdict.reasonCodes))) false
  pure { response with
    state := .failed
    message := "blocked by policy; no token issued, provider not contacted" }

/-- Stage 6 for a transaction parked for a human. -/
def finishParked (txn : CanonicalTransaction) (verdict : PDPResult) (response : DecisionResponse) :
    Py DecisionResponse := do
  let request ← createRequest txn verdict.reasonCodes
  pure { response with
    state := .created
    message := "human approval required; approve at /v1/approvals/ar_" ++
      toString request.approvalRequestId ++
      "/grant then retry with the returned approval_token" }

/-- Stage 6 for an allowed transaction. -/
def finishAllowed (R : Runtime) (txn : CanonicalTransaction) (verdict : PDPResult)
    (response : DecisionResponse) (execute : Bool) : Py DecisionResponse := do
  let _ ← recordVelocity txn
  let token ← authorize R txn verdict.policyVersion
  let response := { response with
    state := .authorized
    authorization := some (responseToken txn token verdict.policyVersion) }
  if execute then do
    let provider ← submit R txn token
    pure (withOutcome response provider)
  else pure { response with message := "authorized; token issued, not submitted" }

/-- Stage 6. -/
def finish (R : Runtime) (txn : CanonicalTransaction) (verdict : PDPResult)
    (response : DecisionResponse) (execute : Bool) : Py DecisionResponse :=
  match verdict.decision with
  | .block => finishBlocked R txn verdict response
  | .requireApproval => finishParked txn verdict response
  | .allow => finishAllowed R txn verdict response execute

/-- The audit event of a decision. -/
def decisionEvent (txn : CanonicalTransaction) (verdict : PDPResult) (risk : RiskAssessment)
    (analysis : AnalysisResult) (ctx : PolicyContext) (response : DecisionResponse) :
    EventFields where
  eventType := "decision." ++ verdict.decision.value.toLower
  paymentAuthorizationId := some txn.paymentAuthorizationId
  userId := some txn.userId
  agentId := some txn.agentId
  decision := some verdict.decision.value
  reasonCodes := verdict.reasonCodes
  risk := risk.modelDump
  policyVersion := some verdict.policyVersion
  payload := .obj [
    ("merchant_id", .str txn.merchantId),
    ("amount", .str txn.amount.str),
    ("currency", .str txn.currency),
    ("cart_hash", .str txn.cartHash),
    ("fingerprint", .str txn.fingerprint),
    ("idempotency_key", .str txn.idempotencyKey),
    ("state", .str response.state.value),
    ("analysis", analysis.toDict),
    ("context", ctx.toDict),
    ("pdp_available", .bool verdict.pdpAvailable)]

/-- Stage 7 and the memoisation of the outcome. -/
def concludeRequest (R : Runtime) (txn : CanonicalTransaction) (outcome : IdempotencyOutcome)
    (verdict : PDPResult) (event : EventFields) (response : DecisionResponse) :
    Py DecisionResponse := do
  let (eventId, eventHash) ← recordEventSafe R event
  let response := { response with auditEventId := eventId, auditHash := eventHash }
  if !outcome.isConflict && decide (verdict.decision ≠ .requireApproval) then do
    rememberOutcome R txn response (decide (verdict.decision = .allow))
    pure response
  else pure response

/-- The evidence of a request. -/
def evidenceOf (R : Runtime) (txn : CanonicalTransaction) (userId : String)
    (outcome : IdempotencyOutcome) (analysis : AnalysisResult) (ctx : PolicyContext)
    (approval : ApprovalFinding) : Evidence where
  txn := txn
  ctx := ctx
  analysis := analysis
  risk := assess R txn ctx analysis
  identity := { valid := true, userId }
  duplicate := outcome.finding
  approval := approval
  allowDegradedClassifier := R.settings.allowDegradedClassifier
  degradedClassifierRequiresReview := R.settings.degradedClassifierRequiresReview

/-- The response a verdict opens. -/
def openResponse (txn : CanonicalTransaction) (verdict : PDPResult) (risk : RiskAssessment)
    (createdAt : Time) : DecisionResponse where
  paymentAuthorizationId := txn.paymentAuthorizationId
  decision := verdict.decision
  reasonCodes := verdict.reasonCodes
  state := .created
  risk := risk
  policyVersion := verdict.policyVersion
  createdAt := createdAt

/-- The stages after the decision. -/
def carryOut (R : Runtime) (txn : CanonicalTransaction) (execute : Bool)
    (outcome : IdempotencyOutcome) (analysis : AnalysisResult) (ctx : PolicyContext)
    (verdict : PDPResult) : Py DecisionResponse := do
  let risk := assess R txn ctx analysis
  let createdAt ← perform .now
  persistTransaction txn verdict risk
  let response ← finish R txn verdict (openResponse txn verdict risk createdAt) execute
  concludeRequest R txn outcome verdict (decisionEvent txn verdict risk analysis ctx response)
    response

/-- The stages after the duplicate check. -/
def enforce (R : Runtime) (txn : CanonicalTransaction) (userId : String) (execute : Bool)
    (outcome : IdempotencyOutcome) : Py DecisionResponse := do
  let analysis ← perform (.analyze txn)
  let ctx ← loadContext txn
  let approval ← evaluateToken txn.approvalToken
  let input := buildInput (evidenceOf R txn userId outcome analysis ctx approval)
  let answer ← perform (.evaluatePolicy input)
  carryOut R txn execute outcome analysis ctx (readAnswer input answer)

/-- `_run_pipeline`. -/
def runPipeline (R : Runtime) (txn : CanonicalTransaction) (userId : String) (execute : Bool) :
    Py DecisionResponse := do
  let outcome ← checkDuplicate txn
  match outcome.replayResponse with
  | some stored => replay R txn stored
  | none => enforce R txn userId execute outcome

/-- The refusal of a request whose locks are held. -/
def concurrentRequest (R : Runtime) (id : ℕ) : Py DecisionResponse := do
  let createdAt ← perform .now
  pure {
    paymentAuthorizationId := id
    decision := .block
    reasonCodes := ["CONCURRENT_REQUEST_IN_FLIGHT"]
    state := .failed
    risk := emptyRisk R.settings.policyVersion
    policyVersion := R.settings.policyVersion
    createdAt
    message := "another authorization for this idempotency key is in flight" }

/-- The name of the idempotency lock. -/
def idemLock (txn : CanonicalTransaction) : String :=
  "idem:" ++ txn.userId ++ ":" ++ txn.idempotencyKey

/-- The name of the fingerprint lock. -/
def fingerprintLock (txn : CanonicalTransaction) : String :=
  "fp:" ++ txn.userId ++ ":" ++ txn.fingerprint

/-- The lease of the fingerprint lock in seconds. -/
def fingerprintLockTtl : ℕ := 15

/-- The canonical transaction and its critical section, under `except TimeoutError`. -/
def guardedPipeline (R : Runtime) (intent : PaymentIntent) (identity : AgentIdentity)
    (execute : Bool) : Py DecisionResponse := do
  let id ← perform .uuid4
  let timestamp ← perform .now
  let txn := buildCanonical R intent identity id timestamp
  Prog.recover
    (withLock (idemLock txn) R.settings.lockTtlSeconds
      (withLock (fingerprintLock txn) fingerprintLockTtl
        (runPipeline R txn identity.userId execute)))
    fun e => match e with
      | .timeoutError => concurrentRequest R id
      | e => Prog.throw e

/-- `create_payment_intent` after identity was established. -/
def admission (R : Runtime) (intent : PaymentIntent) (identity : AgentIdentity) (execute : Bool) :
    Py DecisionResponse := do
  let admitted ← (enforceEdgeRateLimit R identity.agentId identity.delegationId).attempt
  match admitted with
  | .ok () => guardedPipeline R intent identity execute
  | .error (.rateLimitError scope limit) =>
      blockedBeforePipeline R intent ["RATE_LIMIT_EXCEEDED"]
        ("edge rate limit exceeded for " ++ scope ++ " (" ++ toString limit ++ "/min)")
        "edge_rate_limit"
  | .error e => Prog.throw e

/-- `create_payment_intent`. -/
def createPaymentIntent (R : Runtime) (intent : PaymentIntent) (credential : Credential)
    (execute : Bool) : Py DecisionResponse := do
  let authenticated ← (authenticate credential intent).attempt
  match authenticated with
  | .ok identity => admission R intent identity execute
  | .error (.identityError reasonCode message) =>
      blockedBeforePipeline R intent ["INVALID_IDENTITY", reasonCode] message "identity"
  | .error e => Prog.throw e

/-- `grant_approval`; no token means an unknown or expired request. -/
def grantApproval (R : Runtime) (approvalRequestId : ℕ) : Py (Option ApprovalClaims) := do
  let token ← grant approvalRequestId
  match token with
  | none => pure none
  | some token => do
      let request ← loadRequest approvalRequestId
      let _ ← recordEventSafe R {
        eventType := "approval.granted"
        paymentAuthorizationId := request.map ApprovalRequest.paymentAuthorizationId
        userId := request.map ApprovalRequest.userId
        reasonCodes := ["HUMAN_APPROVAL_GRANTED"]
        payload := (request.map ApprovalRequest.summary).getD (.obj []) }
      pure (some token)

/-- The age limit of a reconciliation pass in minutes. -/
def reconcileMaxAge : ℕ := 60

/-! ## The machine -/

/-- A request to the gateway, or one of its maintenance passes. -/
inductive Job where
  | paymentIntent (intent : PaymentIntent) (credential : Credential) (execute : Bool)
  | grantApproval (approvalRequestId : ℕ)
  | reconcile
  | reconcileUnknown
  | expireStaleAuthorizations

/-- What the caller of a job sees. The fail-closed body carries the decision `BLOCK`. -/
inductive Response where
  | decision (response : DecisionResponse)
  | failClosed (reasonCodes : List String)
  | approval (token : Option ApprovalClaims)
  | reconciled (resolved : Resolved) (expired : ℕ)
  | resolved (resolved : Resolved)
  | expired (count : ℕ)

/-- The handler of unhandled exceptions; a cancelled task answers nobody. -/
def unhandled {α : Type} (toResponse : α → Response) (p : Py α) : Py Response :=
  Prog.recover
    (do
      let a ← p
      pure (toResponse a))
    fun e => if e.isException then pure (.failClosed ["INTERNAL_ERROR_FAIL_CLOSED"])
      else Prog.throw e

/-- The program of a job. -/
def Job.start (R : Runtime) : Job → Py Response
  | paymentIntent intent credential execute =>
      unhandled .decision (createPaymentIntent R intent credential execute)
  | grantApproval id => unhandled .approval (Gateway.grantApproval R id)
  | reconcile => unhandled (fun p : Resolved × ℕ => .reconciled p.1 p.2) do
      let resolved ← Gateway.reconcileUnknown R reconcileMaxAge
      let expired ← Gateway.expireStaleAuthorizations R
      pure (resolved, expired)
  | reconcileUnknown => unhandled .resolved (Gateway.reconcileUnknown R reconcileMaxAge)
  | expireStaleAuthorizations => unhandled .expired (Gateway.expireStaleAuthorizations R)

/-- The gateway as a machine over its world. -/
def machine (R : Runtime) : Machine World Job Env Outcome Op Op.Val Exn Response where
  start := Job.start R
  perform := World.perform
  environment := World.environment

/-- Configurations of the gateway. -/
abbrev Config := Machine.Config World Job Outcome Op Op.Val Exn Response

/-- Performed operations of the gateway. -/
abbrev Event := Machine.Event Outcome Op Op.Val Exn

/-- Conditions on the steps of the gateway. -/
abbrev Discipline := Machine.Discipline World Job Env Outcome Op Op.Val Exn Response

/-- Checks of the steps of the gateway. -/
abbrev Checks := Machine.Checks World Job Env Outcome Op Op.Val Exn Response

/-- The caller sees the decision `BLOCK`. -/
def Response.isBlock : Response → Bool
  | decision response => decide (response.decision = .block)
  | failClosed _ => true
  | _ => false

end AgentPay.Gateway
