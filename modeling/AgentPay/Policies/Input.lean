import AgentPay.Library.Rego

/-!
# The policy input

The document the policies read, one record per top-level key. A field that is absent, or whose
object is absent, is `none`. The bindings of an approval can be present and null, which is
`some none`. Amounts are whole minor units; scores are exact rationals.
-/

set_option autoImplicit false

namespace AgentPay.Policies

/-- `input.identity`. -/
structure IdentityInput where
  valid : Option Bool := none
  userId : Option String := none
  reasonCodes : Option (List String) := none

/-- `input.transaction`. -/
structure TransactionInput where
  userId : Option String := none
  agentId : Option String := none
  delegationId : Option String := none
  merchantId : Option String := none
  merchantVerifiedClaim : Option Bool := none
  amount : Option ℤ := none
  currency : Option String := none
  cartHash : Option String := none
  itemCount : Option ℕ := none
  agentScopes : Option (List String) := none

/-- `input.security`. -/
structure SecurityInput where
  injectionConfidence : Option ℚ := none
  injectionLabels : Option (List String) := none
  classifierDegraded : Option Bool := none
  deterministicConfidence : Option ℚ := none
  sourceTrustScore : Option ℚ := none

/-- `input.risk.signals`. -/
structure SignalsInput where
  injectionConfidence : Option ℚ := none
  injectionLabels : Option (List String) := none
  policyViolationScore : Option ℚ := none
  budgetAnomalyScore : Option ℚ := none
  merchantRiskScore : Option ℚ := none
  velocityRiskScore : Option ℚ := none
  sourceTrustScore : Option ℚ := none
  classifierDegraded : Option Bool := none

/-- `input.risk`. -/
structure RiskInput where
  weightedScore : Option ℚ := none
  signals : SignalsInput := {}

/-- `input.context`. -/
structure ContextInput where
  policyFound : Option Bool := none
  policyVersion : Option String := none
  perTransactionLimit : Option ℤ := none
  dailyLimit : Option ℤ := none
  policyCurrency : Option String := none
  allowedMerchants : Option (List String) := none
  blockedMerchants : Option (List String) := none
  requireVerifiedMerchant : Option Bool := none
  approvalThreshold : Option ℤ := none
  maxTransactionsPerHour : Option ℤ := none
  policyRevoked : Option Bool := none
  merchantKnown : Option Bool := none
  merchantVerified : Option Bool := none
  merchantCategory : Option String := none
  merchantRegistryRisk : Option ℚ := none
  agentRegistered : Option Bool := none
  agentActive : Option Bool := none
  agentAllowedCategories : Option (List String) := none
  spentToday : Option ℤ := none
  transactionsLastHour : Option ℤ := none
  allowDegradedClassifier : Option Bool := none
  degradedClassifierRequiresReview : Option Bool := none

/-- `input.approval`. -/
structure ApprovalInput where
  present : Option Bool := none
  valid : Option Bool := none
  expired : Option Bool := none
  boundAmount : Option (Option ℤ) := none
  boundMerchantId : Option (Option String) := none
  boundCurrency : Option (Option String) := none
  boundCartHash : Option (Option String) := none

/-- `input.duplicate`. -/
structure DuplicateInput where
  idempotencyConflict : Option Bool := none
  fingerprintConflict : Option Bool := none

/-- The whole input. -/
structure PolicyInput where
  identity : IdentityInput := {}
  transaction : TransactionInput := {}
  security : SecurityInput := {}
  risk : RiskInput := {}
  context : ContextInput := {}
  approval : ApprovalInput := {}
  duplicate : DuplicateInput := {}

end AgentPay.Policies
