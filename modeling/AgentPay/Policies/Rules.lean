import AgentPay.Policies.Input

/-!
# The rule packages

The partial sets `deny` and `require_approval` of each policy package, rule by rule, and the
thresholds they share.
-/

set_option autoImplicit false

namespace AgentPay.Policies

open AgentPay.Library.Rego

/-! ## Thresholds -/

namespace Thresholds

def injectionHardBlock : ℚ := 85 / 100

def injectionReview : ℚ := 5 / 10

def scoreReview : ℚ := 60

def velocityReviewRatio : ℚ := 8 / 10

end Thresholds

/-! ## Spending -/

namespace Spending

/-- `data.agentpay.spending.deny`. -/
def deny (input : PolicyInput) : List String := partialSet [
  ⟨"NO_SPENDING_POLICY_BOUND", [negate input.context.policyFound]⟩,
  ⟨"DELEGATION_POLICY_REVOKED", [equal input.context.policyRevoked (some true)]⟩,
  ⟨"BUDGET_EXCEEDED", [input.context.policyFound,
    less input.context.perTransactionLimit input.transaction.amount]⟩,
  ⟨"DAILY_BUDGET_EXCEEDED", [input.context.policyFound,
    less input.context.dailyLimit (plus input.context.spentToday input.transaction.amount)]⟩,
  ⟨"CURRENCY_NOT_PERMITTED", [input.context.policyFound,
    unequal input.transaction.currency input.context.policyCurrency]⟩,
  ⟨"VELOCITY_LIMIT_EXCEEDED", [
    atLeast input.context.transactionsLastHour input.context.maxTransactionsPerHour]⟩]

/-- `data.agentpay.spending.require_approval`. -/
def requireApproval (input : PolicyInput) : List String := partialSet [
  ⟨"ABOVE_APPROVAL_THRESHOLD", [input.context.policyFound,
    atLeast input.transaction.amount input.context.approvalThreshold]⟩,
  ⟨"VELOCITY_ELEVATED", [less (some 0) input.context.maxTransactionsPerHour,
    atLeast (quotient input.context.transactionsLastHour input.context.maxTransactionsPerHour)
      (some Thresholds.velocityReviewRatio),
    less input.context.transactionsLastHour input.context.maxTransactionsPerHour]⟩]

end Spending

/-! ## Merchant -/

namespace Merchant

/-- `data.agentpay.merchant.deny`. -/
def deny (input : PolicyInput) : List String := partialSet [
  ⟨"MERCHANT_BLOCKED", [isIn input.transaction.merchantId input.context.blockedMerchants]⟩,
  ⟨"MERCHANT_NOT_IN_ALLOWLIST", [less (some 0) (count input.context.allowedMerchants),
    negate (isIn input.transaction.merchantId input.context.allowedMerchants)]⟩,
  ⟨"UNVERIFIED_MERCHANT", [equal input.context.requireVerifiedMerchant (some true),
    negate input.context.merchantVerified]⟩,
  ⟨"MERCHANT_VERIFICATION_SPOOFED", [equal input.transaction.merchantVerifiedClaim (some true),
    input.context.merchantKnown, negate input.context.merchantVerified]⟩]

/-- `data.agentpay.merchant.require_approval`. -/
def requireApproval (input : PolicyInput) : List String := partialSet [
  ⟨"UNKNOWN_MERCHANT", [negate input.context.merchantKnown,
    negate input.context.requireVerifiedMerchant]⟩,
  ⟨"ELEVATED_MERCHANT_RISK", [atLeast input.risk.signals.merchantRiskScore (some (6 / 10)),
    input.context.merchantKnown, input.context.merchantVerified]⟩]

end Merchant

/-! ## Agent scope -/

namespace AgentScope

/-- `data.agentpay.agent_scope.deny`. The second rule ranges over the reason codes of the
identity finding. -/
def deny (input : PolicyInput) : List String := partialSet ([
  ⟨"INVALID_IDENTITY", [equal input.identity.valid (some false)]⟩] ++
  (input.identity.reasonCodes.getD []).map (fun code =>
    ⟨code, [equal input.identity.valid (some false)]⟩) ++ [
  ⟨"AGENT_NOT_REGISTERED", [input.identity.valid, negate input.context.agentRegistered]⟩,
  ⟨"AGENT_DEACTIVATED", [input.context.agentRegistered,
    equal input.context.agentActive (some false)]⟩,
  ⟨"AGENT_SCOPE_VIOLATION", [
    negate (isIn (some "payments:authorize") input.transaction.agentScopes)]⟩,
  ⟨"AGENT_CATEGORY_NOT_PERMITTED", [less (some 0) (count input.context.agentAllowedCategories),
    negate (isIn input.context.merchantCategory input.context.agentAllowedCategories)]⟩,
  ⟨"DELEGATION_USER_MISMATCH", [unequal input.transaction.userId input.identity.userId]⟩])

end AgentScope

/-! ## Approvals -/

namespace Approvals

/-- `data.agentpay.approvals.deny`. A null binding differs from every value. -/
def deny (input : PolicyInput) : List String := partialSet [
  ⟨"APPROVAL_BINDING_MISMATCH", [input.approval.present,
    unequal input.approval.boundAmount (input.transaction.amount.map some)]⟩,
  ⟨"APPROVAL_BINDING_MISMATCH", [input.approval.present,
    unequal input.approval.boundMerchantId (input.transaction.merchantId.map some)]⟩,
  ⟨"APPROVAL_BINDING_MISMATCH", [input.approval.present,
    unequal input.approval.boundCurrency (input.transaction.currency.map some)]⟩,
  ⟨"APPROVAL_BINDING_MISMATCH", [input.approval.present,
    unequal input.approval.boundCartHash (input.transaction.cartHash.map some)]⟩,
  ⟨"APPROVAL_EXPIRED", [input.approval.present, equal input.approval.expired (some true)]⟩,
  ⟨"APPROVAL_INVALID", [input.approval.present, equal input.approval.valid (some false)]⟩]

/-- `data.agentpay.approvals.require_approval`. -/
def requireApproval (input : PolicyInput) : List String := partialSet [
  ⟨"COMPOSITE_RISK_ELEVATED", [atLeast input.risk.weightedScore (some Thresholds.scoreReview)]⟩]

end Approvals

/-! ## Duplicates -/

namespace Duplicates

/-- `data.agentpay.duplicates.deny`. -/
def deny (input : PolicyInput) : List String := partialSet [
  ⟨"DUPLICATE_IDEMPOTENCY_KEY", [equal input.duplicate.idempotencyConflict (some true)]⟩,
  ⟨"DUPLICATE_TRANSACTION_FINGERPRINT", [equal input.duplicate.fingerprintConflict (some true)]⟩]

end Duplicates

/-! ## Injection -/

namespace Injection

/-- `data.agentpay.injection.escalate_degraded_to_human`. -/
def escalateDegradedToHuman (input : PolicyInput) : Option Bool := completeRule none [
  ⟨true, [equal input.security.classifierDegraded (some true),
    equal input.context.degradedClassifierRequiresReview (some true),
    negate input.context.allowDegradedClassifier,
    less input.security.deterministicConfidence (some Thresholds.injectionReview)]⟩]

/-- `data.agentpay.injection.deny`. -/
def deny (input : PolicyInput) : List String := partialSet [
  ⟨"PROMPT_INJECTION_HIGH_CONFIDENCE", [
    atLeast input.security.injectionConfidence (some Thresholds.injectionHardBlock)]⟩,
  ⟨"CLASSIFIER_UNAVAILABLE_FAIL_CLOSED", [equal input.security.classifierDegraded (some true),
    negate input.context.allowDegradedClassifier, negate (escalateDegradedToHuman input)]⟩]

/-- `data.agentpay.injection.require_approval`. -/
def requireApproval (input : PolicyInput) : List String := partialSet [
  ⟨"CLASSIFIER_UNAVAILABLE_HUMAN_REVIEW", [escalateDegradedToHuman input]⟩,
  ⟨"PROMPT_INJECTION_SUSPECTED", [
    atLeast input.security.injectionConfidence (some Thresholds.injectionReview),
    less input.security.injectionConfidence (some Thresholds.injectionHardBlock)]⟩]

end Injection

end AgentPay.Policies
