import AgentPay.Gateway.Store

/-!
# Tokens and human approvals

The two kinds of signed claims the gateway issues, and the approval flow: a parked transaction is
stored as a request, granting the request signs a token bound to what the request displays, and a
presented token becomes a finding for the policy. Nothing here decides.
-/

set_option autoImplicit false

namespace AgentPay.Gateway

open AgentPay.Library

/-- A signed payment credential as the gateway keeps it. -/
structure IssuedToken where
  token : AuthorizationClaims
  jti : ℕ
  expiresAt : ℕ
deriving DecidableEq

/-- `issue_authorization_token`. -/
def issueAuthorizationToken (R : Runtime) (txn : CanonicalTransaction) (policyVersion : String) :
    Py IssuedToken := do
  let time ← perform .now
  let now := time / seconds 1
  let jti ← perform .uuid4
  let claims : AuthorizationClaims := {
    sub := txn.userId
    jti
    iat := now
    exp := now + R.settings.tokenTtlSeconds
    paymentAuthorizationId := txn.paymentAuthorizationId
    agentId := txn.agentId
    merchantId := txn.merchantId
    amount := txn.amount.str
    currency := txn.currency
    cartHash := txn.cartHash
    policyVersion }
  perform (.signAuthorization claims)
  pure ⟨claims, jti, now + R.settings.tokenTtlSeconds⟩

/-- The life of an approval request and of an approval token in seconds. -/
def approvalTtlSeconds : ℕ := 900

/-- The store key of an approval request. -/
def approvalKey (approvalRequestId : ℕ) : String :=
  "agentpay:approval:ar_" ++ toString approvalRequestId

/-- The request for a parked transaction; its id is that of the payment. -/
def ApprovalRequest.ofTransaction (txn : CanonicalTransaction) (reasonCodes : List String) :
    ApprovalRequest where
  approvalRequestId := txn.paymentAuthorizationId
  userId := txn.userId
  merchantId := txn.merchantId
  amount := txn.amount.str
  currency := txn.currency
  cartHash := txn.cartHash
  reasonCodes := reasonCodes
  paymentAuthorizationId := txn.paymentAuthorizationId

/-- `summary` of a request. -/
def ApprovalRequest.summary (r : ApprovalRequest) : Json := .obj [
  ("approval_request_id", .str ("ar_" ++ toString r.approvalRequestId)),
  ("what_you_are_approving", .str (r.amount ++ " " ++ r.currency ++ " to merchant " ++
    r.merchantId)),
  ("cart_hash", .str r.cartHash),
  ("why", .arr (r.reasonCodes.map .str)),
  ("expires_in_seconds", .int approvalTtlSeconds)]

/-- `create_request`. -/
def createRequest (txn : CanonicalTransaction) (reasonCodes : List String) :
    Py ApprovalRequest := do
  let request := ApprovalRequest.ofTransaction txn reasonCodes
  perform (.set (approvalKey request.approvalRequestId) (.approvalRequest request)
    approvalTtlSeconds)
  pure request

/-- `load_request`. -/
def loadRequest (approvalRequestId : ℕ) : Py (Option ApprovalRequest) := do
  let raw ← perform (.get (approvalKey approvalRequestId))
  match raw with
  | none => pure none
  | some (.approvalRequest request) => pure (some request)
  | some _ => Prog.throw .valueError

/-- The claims bound to what a request displays; `Decimal` reads the stored amount and `str` writes
it again. -/
def approvalClaims (request : ApprovalRequest) (approvalRequestId jti now : ℕ) :
    Option ApprovalClaims :=
  (Decimal.parse request.amount).map fun amount => {
    sub := request.userId
    jti
    iat := now
    exp := now + approvalTtlSeconds
    approvalRequestId
    boundMerchantId := request.merchantId
    boundAmount := amount.str
    boundCurrency := request.currency
    boundCartHash := request.cartHash }

/-- `grant`. -/
def grant (approvalRequestId : ℕ) : Py (Option ApprovalClaims) := do
  let request ← loadRequest approvalRequestId
  match request with
  | none => pure none
  | some request => do
      perform (.set (approvalKey approvalRequestId)
        (.approvalRequest { request with granted := true }) approvalTtlSeconds)
      let time ← perform .now
      let jti ← perform .uuid4
      match approvalClaims request approvalRequestId jti (time / seconds 1) with
      | none => Prog.throw .valueError
      | some claims => do
          perform (.signApproval claims)
          pure (some claims)

/-- The finding of a verified token, in minor units like the transaction of the policy input. A
bound amount that is not a numeral has no finding. -/
def findingOfClaims (claims : ApprovalClaims) : Option ApprovalFinding :=
  (toMinorUnitsText claims.boundAmount).map fun amount => {
    present := true
    valid := true
    expired := false
    boundAmount := some amount
    boundMerchantId := some claims.boundMerchantId
    boundCurrency := some claims.boundCurrency
    boundCartHash := some claims.boundCartHash }

/-- `evaluate_token`. -/
def evaluateToken : Option ApprovalToken → Py ApprovalFinding
  | none => pure {}
  | some .garbage => pure { present := true, valid := false, expired := false }
  | some (.signed claims) => do
      let genuine ← perform (.verifyApproval claims)
      let now ← perform .now
      if genuine then
        if seconds claims.exp ≤ now then
          pure { present := true, valid := false, expired := true }
        else match findingOfClaims claims with
          | some finding => pure finding
          | none => Prog.throw .valueError
      else pure { present := true, valid := false, expired := false }

end AgentPay.Gateway
