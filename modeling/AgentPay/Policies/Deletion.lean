import AgentPay.Policies.Decision

/-!
# Documents with missing fields

The fields of the parts of a policy input other than the approval, and the document that is left when
a set of them is deleted. A part is absent when each of its fields is.
-/

set_option autoImplicit false

namespace AgentPay.Policies

open AgentPay.Library.Rego

/-- The fields of the identity, transaction, security, risk, context and duplicate parts. -/
inductive Field where
  | identityValid | identityUserId | identityReasonCodes
  | userId | agentId | delegationId | merchantId | merchantVerifiedClaim | amount | currency
  | cartHash | itemCount | agentScopes
  | injectionConfidence | injectionLabels | classifierDegraded | deterministicConfidence
  | sourceTrustScore
  | weightedScore | signalInjectionConfidence | signalInjectionLabels | signalPolicyViolationScore
  | signalBudgetAnomalyScore | signalMerchantRiskScore | signalVelocityRiskScore
  | signalSourceTrustScore | signalClassifierDegraded
  | policyFound | policyVersion | perTransactionLimit | dailyLimit | policyCurrency
  | allowedMerchants | blockedMerchants | requireVerifiedMerchant | approvalThreshold
  | maxTransactionsPerHour | policyRevoked | merchantKnown | merchantVerified | merchantCategory
  | merchantRegistryRisk | agentRegistered | agentActive | agentAllowedCategories | spentToday
  | transactionsLastHour | allowDegradedClassifier | degradedClassifierRequiresReview
  | idempotencyConflict | fingerprintConflict
deriving DecidableEq

/-- A field's value in a document without the fields of `D`. -/
abbrev without {α : Type} (D : List Field) (f : Field) (a : Option α) : Option α := given (f ∉ D) a

/-- The document without the fields of `D`. -/
def PolicyInput.delete (D : List Field) (input : PolicyInput) : PolicyInput where
  identity := {
    valid := without D .identityValid input.identity.valid
    userId := without D .identityUserId input.identity.userId
    reasonCodes := without D .identityReasonCodes input.identity.reasonCodes }
  transaction := {
    userId := without D .userId input.transaction.userId
    agentId := without D .agentId input.transaction.agentId
    delegationId := without D .delegationId input.transaction.delegationId
    merchantId := without D .merchantId input.transaction.merchantId
    merchantVerifiedClaim := without D .merchantVerifiedClaim
      input.transaction.merchantVerifiedClaim
    amount := without D .amount input.transaction.amount
    currency := without D .currency input.transaction.currency
    cartHash := without D .cartHash input.transaction.cartHash
    itemCount := without D .itemCount input.transaction.itemCount
    agentScopes := without D .agentScopes input.transaction.agentScopes }
  security := {
    injectionConfidence := without D .injectionConfidence input.security.injectionConfidence
    injectionLabels := without D .injectionLabels input.security.injectionLabels
    classifierDegraded := without D .classifierDegraded input.security.classifierDegraded
    deterministicConfidence := without D .deterministicConfidence
      input.security.deterministicConfidence
    sourceTrustScore := without D .sourceTrustScore input.security.sourceTrustScore }
  risk := {
    weightedScore := without D .weightedScore input.risk.weightedScore
    signals := {
      injectionConfidence := without D .signalInjectionConfidence input.risk.signals.injectionConfidence
      injectionLabels := without D .signalInjectionLabels input.risk.signals.injectionLabels
      policyViolationScore := without D .signalPolicyViolationScore input.risk.signals.policyViolationScore
      budgetAnomalyScore := without D .signalBudgetAnomalyScore input.risk.signals.budgetAnomalyScore
      merchantRiskScore := without D .signalMerchantRiskScore input.risk.signals.merchantRiskScore
      velocityRiskScore := without D .signalVelocityRiskScore input.risk.signals.velocityRiskScore
      sourceTrustScore := without D .signalSourceTrustScore input.risk.signals.sourceTrustScore
      classifierDegraded := without D .signalClassifierDegraded input.risk.signals.classifierDegraded } }
  context := {
    policyFound := without D .policyFound input.context.policyFound
    policyVersion := without D .policyVersion input.context.policyVersion
    perTransactionLimit := without D .perTransactionLimit input.context.perTransactionLimit
    dailyLimit := without D .dailyLimit input.context.dailyLimit
    policyCurrency := without D .policyCurrency input.context.policyCurrency
    allowedMerchants := without D .allowedMerchants input.context.allowedMerchants
    blockedMerchants := without D .blockedMerchants input.context.blockedMerchants
    requireVerifiedMerchant := without D .requireVerifiedMerchant
      input.context.requireVerifiedMerchant
    approvalThreshold := without D .approvalThreshold input.context.approvalThreshold
    maxTransactionsPerHour := without D .maxTransactionsPerHour
      input.context.maxTransactionsPerHour
    policyRevoked := without D .policyRevoked input.context.policyRevoked
    merchantKnown := without D .merchantKnown input.context.merchantKnown
    merchantVerified := without D .merchantVerified input.context.merchantVerified
    merchantCategory := without D .merchantCategory input.context.merchantCategory
    merchantRegistryRisk := without D .merchantRegistryRisk input.context.merchantRegistryRisk
    agentRegistered := without D .agentRegistered input.context.agentRegistered
    agentActive := without D .agentActive input.context.agentActive
    agentAllowedCategories := without D .agentAllowedCategories
      input.context.agentAllowedCategories
    spentToday := without D .spentToday input.context.spentToday
    transactionsLastHour := without D .transactionsLastHour input.context.transactionsLastHour
    allowDegradedClassifier := without D .allowDegradedClassifier
      input.context.allowDegradedClassifier
    degradedClassifierRequiresReview := without D .degradedClassifierRequiresReview
      input.context.degradedClassifierRequiresReview }
  duplicate := {
    idempotencyConflict := without D .idempotencyConflict input.duplicate.idempotencyConflict
    fingerprintConflict := without D .fingerprintConflict input.duplicate.fingerprintConflict }
  approval := input.approval

theorem PolicyInput.delete_nil (input : PolicyInput) : input.delete [] = input := by
  simp [PolicyInput.delete, given]

end AgentPay.Policies
