import AgentPay.Gateway.Evidence
import AgentPay.Gateway.Money
import AgentPay.Policies.Decision

/-!
# The policy decision point client

Marshals the evidence into the policy input, with every amount in minor units, and reads the answer
of the policy engine, blocking when there is none.
-/

set_option autoImplicit false

namespace AgentPay.Gateway

open AgentPay.Library AgentPay.Policies

/-- The evidence `build_input` marshals. -/
structure Evidence where
  txn : CanonicalTransaction
  ctx : PolicyContext
  analysis : AnalysisResult
  risk : RiskAssessment
  identity : IdentityFinding
  duplicate : DuplicateFinding
  approval : ApprovalFinding
  allowDegradedClassifier : Bool
  degradedClassifierRequiresReview : Bool

/-- The policy input of the evidence. -/
def buildInput (e : Evidence) : PolicyInput where
  identity := {
    valid := some e.identity.valid
    userId := some e.identity.userId
    reasonCodes := some e.identity.reasonCodes }
  transaction := {
    userId := some e.txn.userId
    agentId := some e.txn.agentId
    delegationId := some e.txn.delegationId
    merchantId := some e.txn.merchantId
    merchantVerifiedClaim := some e.txn.merchantVerifiedClaim
    amount := some (toMinorUnits e.txn.amount)
    currency := some e.txn.currency
    cartHash := some e.txn.cartHash
    itemCount := some e.txn.itemCount
    agentScopes := some e.txn.agentScopes }
  security := {
    injectionConfidence := some e.analysis.injectionConfidence
    injectionLabels := some e.analysis.injectionLabels
    classifierDegraded := some e.analysis.classifierDegraded
    deterministicConfidence := some e.analysis.deterministicConfidence
    sourceTrustScore := some e.analysis.sourceTrustScore }
  risk := {
    weightedScore := some e.risk.weightedScore
    signals := {
      injectionConfidence := some e.risk.signals.injectionConfidence
      injectionLabels := some e.risk.signals.injectionLabels
      policyViolationScore := some e.risk.signals.policyViolationScore
      budgetAnomalyScore := some e.risk.signals.budgetAnomalyScore
      merchantRiskScore := some e.risk.signals.merchantRiskScore
      velocityRiskScore := some e.risk.signals.velocityRiskScore
      sourceTrustScore := some e.risk.signals.sourceTrustScore
      classifierDegraded := some e.risk.signals.classifierDegraded } }
  context := {
    policyFound := some e.ctx.policyFound
    policyVersion := some e.ctx.policyVersion
    perTransactionLimit := some (toMinorUnits e.ctx.perTransactionLimit)
    dailyLimit := some (toMinorUnits e.ctx.dailyLimit)
    policyCurrency := some e.ctx.policyCurrency
    allowedMerchants := some e.ctx.allowedMerchants
    blockedMerchants := some e.ctx.blockedMerchants
    requireVerifiedMerchant := some e.ctx.requireVerifiedMerchant
    approvalThreshold := some (toMinorUnits e.ctx.approvalThreshold)
    maxTransactionsPerHour := some e.ctx.maxTransactionsPerHour
    policyRevoked := some e.ctx.policyRevoked
    merchantKnown := some e.ctx.merchantKnown
    merchantVerified := some e.ctx.merchantVerified
    merchantCategory := some e.ctx.merchantCategory
    merchantRegistryRisk := some e.ctx.merchantRegistryRisk
    agentRegistered := some e.ctx.agentRegistered
    agentActive := some e.ctx.agentActive
    agentAllowedCategories := some e.ctx.agentAllowedCategories
    spentToday := some (toMinorUnits e.ctx.spentToday)
    transactionsLastHour := some e.ctx.transactionsLastHour
    allowDegradedClassifier := some e.allowDegradedClassifier
    degradedClassifierRequiresReview := some e.degradedClassifierRequiresReview }
  approval := {
    present := some e.approval.present
    valid := some e.approval.valid
    expired := some e.approval.expired
    boundAmount := some e.approval.boundAmount
    boundMerchantId := some e.approval.boundMerchantId
    boundCurrency := some e.approval.boundCurrency
    boundCartHash := some e.approval.boundCartHash }
  duplicate := {
    idempotencyConflict := some e.duplicate.idempotencyConflict
    fingerprintConflict := some e.duplicate.fingerprintConflict }

/-- What the gateway does with an evaluation. -/
structure PDPResult where
  decision : Decision
  reasonCodes : List String
  policyVersion : String
  weightedScore : ℚ := 0
  denyReasons : List String := []
  approvalReasons : List String := []
  pdpAvailable : Bool := true
deriving DecidableEq

/-- The block that stands for the absence of a decision. -/
def unavailable (policyVersion detail : String) : PDPResult where
  decision := .block
  reasonCodes := ["PDP_UNAVAILABLE_FAIL_CLOSED", firstChars 120 ("PDP_DETAIL:" ++ detail)]
  policyVersion := policyVersion
  denyReasons := ["PDP_UNAVAILABLE_FAIL_CLOSED"]
  pdpAvailable := false

/-- What came back from the policy engine. -/
inductive OpaAnswer where
  | httpError (kind : String)
  | notJson
  | body (result : Option Result)
deriving DecidableEq

/-- The reading of an answer of the policy engine for an input. -/
def readAnswer (input : PolicyInput) (answer : OpaAnswer) : PDPResult :=
  let declaredVersion := input.context.policyVersion.getD "unknown"
  match answer with
  | .httpError kind => unavailable declaredVersion kind
  | .notJson => unavailable declaredVersion "invalid_json"
  | .body none => unavailable declaredVersion "undefined_result"
  | .body (some r) =>
      match Decision.ofValue? r.decision with
      | none => unavailable declaredVersion "unknown_decision_value"
      | some decision => {
          decision
          reasonCodes := r.reasonCodes
          policyVersion := if r.policyVersion = "" then declaredVersion else r.policyVersion
          weightedScore := r.weightedScore
          denyReasons := r.denyReasons
          approvalReasons := r.approvalReasons }

end AgentPay.Gateway
