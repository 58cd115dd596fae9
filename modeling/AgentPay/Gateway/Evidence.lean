import AgentPay.Gateway.Canonical

/-!
# Evidence for a decision

The facts and findings collected before the policy decides: the deterministic context, the content
analysis, the findings about identity, duplicates and approvals, and the signals of the risk engine.
None of them decides anything. Scores are exact rationals.
-/

set_option autoImplicit false

namespace AgentPay.Gateway

open AgentPay.Library

/-- The deterministic facts a decision needs, with the defaults of an unbound delegation. -/
structure PolicyContext where
  policyFound : Bool := false
  policyVersion : String := "unbound"
  perTransactionLimit : Decimal := .ofNat 0
  dailyLimit : Decimal := .ofNat 0
  policyCurrency : String := "USD"
  allowedMerchants : List String := []
  blockedMerchants : List String := []
  requireVerifiedMerchant : Bool := true
  approvalThreshold : Decimal := .ofNat 0
  maxTransactionsPerHour : ℤ := 10
  policyRevoked : Bool := false
  merchantKnown : Bool := false
  merchantVerified : Bool := false
  merchantCategory : String := "unknown"
  merchantRegistryRisk : ℚ := 9 / 10
  agentRegistered : Bool := false
  agentActive : Bool := false
  agentAllowedCategories : List String := []
  spentToday : Decimal := .ofNat 0
  transactionsLastHour : ℤ := 0
deriving DecidableEq

/-- What the content analyzer concluded. -/
structure AnalysisResult where
  injectionConfidence : ℚ
  injectionLabels : List String := []
  ruleConfidence : ℚ := 0
  llmConfidence : ℚ := 0
  similarityConfidence : ℚ := 0
  similarityLabel : String := ""
  deterministicConfidence : ℚ := 0
  classifierDegraded : Bool := false
  classifierDegradedReason : String := ""
  sourceTrustScore : ℚ := 1
  evidence : List Json := []
  classifierModel : String := ""
  classifierLatencyMs : ℕ := 0

/-- A list of texts as a document. -/
def jsonStrings (l : List String) : Json := .arr (l.map .str)

/-- `to_dict` of an analysis. -/
def AnalysisResult.toDict (a : AnalysisResult) : Json := .obj [
  ("injection_confidence", .float a.injectionConfidence),
  ("injection_labels", jsonStrings a.injectionLabels),
  ("rule_confidence", .float a.ruleConfidence),
  ("llm_confidence", .float a.llmConfidence),
  ("similarity_confidence", .float a.similarityConfidence),
  ("similarity_label", .str a.similarityLabel),
  ("deterministic_confidence", .float a.deterministicConfidence),
  ("classifier_degraded", .bool a.classifierDegraded),
  ("classifier_degraded_reason", .str a.classifierDegradedReason),
  ("source_trust_score", .float a.sourceTrustScore),
  ("classifier_model", .str a.classifierModel),
  ("classifier_latency_ms", .int a.classifierLatencyMs),
  ("evidence", .arr (a.evidence.take 12))]

/-- `to_dict` of a context. -/
def PolicyContext.toDict (c : PolicyContext) : Json := .obj [
  ("policy_found", .bool c.policyFound),
  ("policy_version", .str c.policyVersion),
  ("per_transaction_limit", .str c.perTransactionLimit.str),
  ("daily_limit", .str c.dailyLimit.str),
  ("policy_currency", .str c.policyCurrency),
  ("allowed_merchants", jsonStrings c.allowedMerchants),
  ("blocked_merchants", jsonStrings c.blockedMerchants),
  ("require_verified_merchant", .bool c.requireVerifiedMerchant),
  ("approval_threshold", .str c.approvalThreshold.str),
  ("max_transactions_per_hour", .int c.maxTransactionsPerHour),
  ("policy_revoked", .bool c.policyRevoked),
  ("merchant_known", .bool c.merchantKnown),
  ("merchant_verified", .bool c.merchantVerified),
  ("merchant_category", .str c.merchantCategory),
  ("merchant_registry_risk", .float c.merchantRegistryRisk),
  ("agent_registered", .bool c.agentRegistered),
  ("agent_active", .bool c.agentActive),
  ("agent_allowed_categories", jsonStrings c.agentAllowedCategories),
  ("spent_today", .str c.spentToday.str),
  ("transactions_last_hour", .int c.transactionsLastHour)]

/-- The dump of a risk assessment. -/
def RiskAssessment.modelDump (r : RiskAssessment) : Json := .obj [
  ("signals", .obj [
    ("injection_confidence", .float r.signals.injectionConfidence),
    ("injection_labels", jsonStrings r.signals.injectionLabels),
    ("policy_violation_score", .float r.signals.policyViolationScore),
    ("budget_anomaly_score", .float r.signals.budgetAnomalyScore),
    ("merchant_risk_score", .float r.signals.merchantRiskScore),
    ("velocity_risk_score", .float r.signals.velocityRiskScore),
    ("source_trust_score", .float r.signals.sourceTrustScore),
    ("classifier_degraded", .bool r.signals.classifierDegraded)]),
  ("weighted_score", .float r.weightedScore),
  ("policy_version_context", .str r.policyVersionContext)]

/-- The outcome of the identity stage. -/
structure IdentityFinding where
  valid : Bool
  userId : String := ""
  reasonCodes : List String := []
deriving DecidableEq

/-- The outcome of the duplicate check. -/
structure DuplicateFinding where
  idempotencyConflict : Bool := false
  fingerprintConflict : Bool := false
deriving DecidableEq

/-- The outcome of evaluating a presented approval token; the bound amount is in minor units. -/
structure ApprovalFinding where
  present : Bool := false
  valid : Bool := false
  expired : Bool := false
  boundAmount : Option ℤ := none
  boundMerchantId : Option String := none
  boundCurrency : Option String := none
  boundCartHash : Option String := none
deriving DecidableEq

/-! ## The risk engine -/

/-- Rounding of a rational to an integer, ties to even. -/
def roundHalfEven (q : ℚ) : ℤ :=
  let f := q - ⌊q⌋
  if f < 1 / 2 then ⌊q⌋
  else if 1 / 2 < f then ⌊q⌋ + 1
  else if ⌊q⌋ % 2 = 0 then ⌊q⌋ else ⌊q⌋ + 1

/-- `round(q, places)`. -/
def roundPlaces (places : ℕ) (q : ℚ) : ℚ := roundHalfEven (q * 10 ^ places) / 10 ^ places

/-- Restriction to the unit interval, rounded to three places. -/
def clamp (x : ℚ) : ℚ := roundPlaces 3 (min 1 (max 0 x))

/-- How far outside the bound policy a request sits. -/
def policyViolationScore (txn : CanonicalTransaction) (ctx : PolicyContext) : ℚ :=
  if !ctx.policyFound then 1
  else
    let s₀ : ℚ := if ctx.policyRevoked then 1 else 0
    let s₁ := if txn.merchantId ∈ ctx.blockedMerchants then max s₀ 1 else s₀
    let s₂ := if ctx.allowedMerchants ≠ [] ∧ txn.merchantId ∉ ctx.allowedMerchants
      then max s₁ (4 / 5) else s₁
    let s₃ := if ctx.requireVerifiedMerchant && !ctx.merchantVerified then max s₂ (3 / 4) else s₂
    let s₄ := if txn.currency ≠ ctx.policyCurrency then max s₃ (3 / 5) else s₃
    let s₅ := if ctx.agentRegistered && !ctx.agentActive then max s₄ 1 else s₄
    let s₆ := if ctx.agentAllowedCategories ≠ [] ∧ ctx.merchantCategory ∉ ctx.agentAllowedCategories
      then max s₅ (11 / 20) else s₅
    let s₇ := if "payments:authorize" ∉ txn.agentScopes then max s₆ 1 else s₆
    clamp s₇

/-- How unusual the amount is against the limits. -/
def budgetAnomalyScore (R : Runtime) (txn : CanonicalTransaction) (ctx : PolicyContext) : ℚ :=
  if !ctx.policyFound || decide (ctx.perTransactionLimit.toRat ≤ 0) then 1
  else
    let perTxnRatio := txn.amount.toRat / ctx.perTransactionLimit.toRat
    let projected := ctx.spentToday.toRat + txn.amount.toRat
    let dailyRatio := if 0 < ctx.dailyLimit.toRat then projected / ctx.dailyLimit.toRat else 1
    if 1 < perTxnRatio ∨ 1 < dailyRatio then 1
    else clamp (R.power15 (max perTxnRatio dailyRatio))

/-- The risk of the merchant in the registry. -/
def merchantRiskScore (ctx : PolicyContext) : ℚ :=
  if !ctx.merchantKnown then 9 / 10
  else
    let base := ctx.merchantRegistryRisk
    clamp (if !ctx.merchantVerified then max base (3 / 5) else base)

/-- The used fraction of the hourly allowance. -/
def velocityRiskScore (ctx : PolicyContext) : ℚ :=
  if ctx.maxTransactionsPerHour ≤ 0 then 1
  else clamp (ctx.transactionsLastHour / ctx.maxTransactionsPerHour)

/-- The normalized signals and their weighted score. -/
def assess (R : Runtime) (txn : CanonicalTransaction) (ctx : PolicyContext)
    (analysis : AnalysisResult) : RiskAssessment :=
  let signals : RiskSignals := {
    injectionConfidence := clamp analysis.injectionConfidence
    injectionLabels := analysis.injectionLabels
    policyViolationScore := policyViolationScore txn ctx
    budgetAnomalyScore := budgetAnomalyScore R txn ctx
    merchantRiskScore := merchantRiskScore ctx
    velocityRiskScore := velocityRiskScore ctx
    sourceTrustScore := clamp analysis.sourceTrustScore
    classifierDegraded := analysis.classifierDegraded }
  let weighted := 35 * signals.injectionConfidence + 25 * signals.policyViolationScore +
    20 * signals.budgetAnomalyScore + 10 * signals.merchantRiskScore +
    10 * signals.velocityRiskScore
  { signals := signals
    weightedScore := roundPlaces 2 weighted
    policyVersionContext := ctx.policyVersion }

end AgentPay.Gateway
