import AgentPay.Policies.Deletion
import AgentPay.Properties.Danger

/-!
# Missing evidence

What the policy decides on a document from which fields were deleted. A rule reacts to an absent field
in one of two ways: where the field is negated, its absence denies; where it is compared, its absence
removes the rule. `Refused` collects the refusals that stand after a deletion, rule by rule, and
`fails_closed_iff` says that a deletion turns a refusal into a permission exactly when none is left.
Deleting the injection confidence of an unmistakable injection is such a deletion
(`missing_confidence_allows`).
-/

set_option autoImplicit false

namespace AgentPay.Properties

open AgentPay.Library AgentPay.Library.Rego AgentPay.Policies AgentPay.Gateway

/-! ## The refusals that stand -/

section Stands

variable (D : List Field) (e : Evidence)

/-- A denial of the spending package stands without the fields of `D`. -/
def SpendingStands : Prop :=
  (.policyFound ∈ D ∨ e.ctx.policyFound = false) ∨
  (.policyRevoked ∉ D ∧ e.ctx.policyRevoked = true) ∨
  ((.policyFound ∉ D ∧ e.ctx.policyFound = true) ∧ .amount ∉ D ∧ .perTransactionLimit ∉ D ∧
    toMinorUnits e.ctx.perTransactionLimit < toMinorUnits e.txn.amount) ∨
  ((.policyFound ∉ D ∧ e.ctx.policyFound = true) ∧ .amount ∉ D ∧ .spentToday ∉ D ∧
    .dailyLimit ∉ D ∧
    toMinorUnits e.ctx.dailyLimit < toMinorUnits e.ctx.spentToday + toMinorUnits e.txn.amount) ∨
  ((.policyFound ∉ D ∧ e.ctx.policyFound = true) ∧ .policyCurrency ∉ D ∧ .currency ∉ D ∧
    e.txn.currency ≠ e.ctx.policyCurrency) ∨
  (.maxTransactionsPerHour ∉ D ∧ .transactionsLastHour ∉ D ∧
    e.ctx.maxTransactionsPerHour ≤ e.ctx.transactionsLastHour)

/-- A denial of the merchant package stands without the fields of `D`. -/
def MerchantStands : Prop :=
  (.blockedMerchants ∉ D ∧ .merchantId ∉ D ∧ e.txn.merchantId ∈ e.ctx.blockedMerchants) ∨
  ((.allowedMerchants ∉ D ∧ e.ctx.allowedMerchants ≠ []) ∧
    (.allowedMerchants ∈ D ∨ .merchantId ∈ D ∨ e.txn.merchantId ∉ e.ctx.allowedMerchants)) ∨
  ((.requireVerifiedMerchant ∉ D ∧ e.ctx.requireVerifiedMerchant = true) ∧
    (.merchantVerified ∈ D ∨ e.ctx.merchantVerified = false)) ∨
  ((.merchantVerifiedClaim ∉ D ∧ e.txn.merchantVerifiedClaim = true) ∧
    (.merchantKnown ∉ D ∧ e.ctx.merchantKnown = true) ∧
    (.merchantVerified ∈ D ∨ e.ctx.merchantVerified = false))

/-- A denial of the agent package stands without the fields of `D`. -/
def AgentStands : Prop :=
  (.identityValid ∉ D ∧ e.identity.valid = false) ∨
  ((.identityValid ∉ D ∧ e.identity.valid = true) ∧
    (.agentRegistered ∈ D ∨ e.ctx.agentRegistered = false)) ∨
  ((.agentRegistered ∉ D ∧ e.ctx.agentRegistered = true) ∧
    .agentActive ∉ D ∧ e.ctx.agentActive = false) ∨
  (.agentScopes ∈ D ∨ "payments:authorize" ∉ e.txn.agentScopes) ∨
  ((.agentAllowedCategories ∉ D ∧ e.ctx.agentAllowedCategories ≠ []) ∧
    (.agentAllowedCategories ∈ D ∨ .merchantCategory ∈ D ∨
      e.ctx.merchantCategory ∉ e.ctx.agentAllowedCategories)) ∨
  (.identityUserId ∉ D ∧ .userId ∉ D ∧ e.txn.userId ≠ e.identity.userId)

/-- A denial of the approvals package stands without the fields of `D`: the approval itself is not
deleted. -/
def ApprovalStands : Prop :=
  (e.approval.present = true ∧ .amount ∉ D ∧
    e.approval.boundAmount ≠ some (toMinorUnits e.txn.amount)) ∨
  (e.approval.present = true ∧ .merchantId ∉ D ∧
    e.approval.boundMerchantId ≠ some e.txn.merchantId) ∨
  (e.approval.present = true ∧ .currency ∉ D ∧ e.approval.boundCurrency ≠ some e.txn.currency) ∨
  (e.approval.present = true ∧ .cartHash ∉ D ∧ e.approval.boundCartHash ≠ some e.txn.cartHash) ∨
  (e.approval.present = true ∧ e.approval.expired = true) ∨
  (e.approval.present = true ∧ e.approval.valid = false)

/-- A denial of the duplicates package stands without the fields of `D`. -/
def DuplicateStands : Prop :=
  (.idempotencyConflict ∉ D ∧ e.duplicate.idempotencyConflict = true) ∨
  (.fingerprintConflict ∉ D ∧ e.duplicate.fingerprintConflict = true)

/-- A degraded classifier is escalated to a human without the fields of `D`. -/
def EscalationStands : Prop :=
  (.classifierDegraded ∉ D ∧ e.analysis.classifierDegraded = true) ∧
  (.degradedClassifierRequiresReview ∉ D ∧ e.degradedClassifierRequiresReview = true) ∧
  (.allowDegradedClassifier ∈ D ∨ e.allowDegradedClassifier = false) ∧
  .deterministicConfidence ∉ D ∧ e.analysis.deterministicConfidence < 5 / 10

/-- A denial of the injection package stands without the fields of `D`. -/
def InjectionStands : Prop :=
  (.injectionConfidence ∉ D ∧ 85 / 100 ≤ e.analysis.injectionConfidence) ∨
  ((.classifierDegraded ∉ D ∧ e.analysis.classifierDegraded = true) ∧
    (.allowDegradedClassifier ∈ D ∨ e.allowDegradedClassifier = false) ∧ ¬ EscalationStands D e)

/-- Some package asks for a human without the fields of `D`. -/
def ReviewStands : Prop :=
  EscalationStands D e ∨
  ((.injectionConfidence ∉ D ∧ 5 / 10 ≤ e.analysis.injectionConfidence) ∧
    .injectionConfidence ∉ D ∧ e.analysis.injectionConfidence < 85 / 100) ∨
  ((.policyFound ∉ D ∧ e.ctx.policyFound = true) ∧ .approvalThreshold ∉ D ∧ .amount ∉ D ∧
    toMinorUnits e.ctx.approvalThreshold ≤ toMinorUnits e.txn.amount) ∨
  ((.maxTransactionsPerHour ∉ D ∧ 0 < e.ctx.maxTransactionsPerHour) ∧
    (.maxTransactionsPerHour ∉ D ∧ .transactionsLastHour ∉ D ∧ e.ctx.maxTransactionsPerHour ≠ 0 ∧
      (8 / 10 : ℚ) ≤ e.ctx.transactionsLastHour / e.ctx.maxTransactionsPerHour) ∧
    .maxTransactionsPerHour ∉ D ∧ .transactionsLastHour ∉ D ∧
    e.ctx.transactionsLastHour < e.ctx.maxTransactionsPerHour) ∨
  ((.merchantKnown ∈ D ∨ e.ctx.merchantKnown = false) ∧
    (.requireVerifiedMerchant ∈ D ∨ e.ctx.requireVerifiedMerchant = false)) ∨
  ((.signalMerchantRiskScore ∉ D ∧ 6 / 10 ≤ e.risk.signals.merchantRiskScore) ∧
    (.merchantKnown ∉ D ∧ e.ctx.merchantKnown = true) ∧
    .merchantVerified ∉ D ∧ e.ctx.merchantVerified = true) ∨
  (.weightedScore ∉ D ∧ 60 ≤ e.risk.weightedScore)

/-- The presented approval answers a review without the fields of `D`. -/
def ApprovalAnswers : Prop :=
  e.approval.present = true ∧ e.approval.valid = true ∧ e.approval.expired = false ∧
  (.amount ∉ D ∧ e.approval.boundAmount = some (toMinorUnits e.txn.amount)) ∧
  (.merchantId ∉ D ∧ e.approval.boundMerchantId = some e.txn.merchantId) ∧
  (.currency ∉ D ∧ e.approval.boundCurrency = some e.txn.currency) ∧
  .cartHash ∉ D ∧ e.approval.boundCartHash = some e.txn.cartHash

/-- The document is refused without the fields of `D`: the result is undefined, a denial stands, or a
review does that no approval answers. -/
def Refused : Prop :=
  (.policyVersion ∈ D ∨ .weightedScore ∈ D) ∨
  (InjectionStands D e ∨ SpendingStands D e ∨ MerchantStands D e ∨ AgentStands D e ∨
    ApprovalStands D e ∨ DuplicateStands D e) ∨
  (ReviewStands D e ∧ ¬ ApprovalAnswers D e)

end Stands

/-! ## The packages -/

section Packages

variable (D : List Field) (e : Evidence)

theorem spending_stands_iff :
    Spending.deny ((buildInput e).delete D) ≠ [] ↔ SpendingStands D e := by
  simp only [Spending.deny, partialSet_ne_nil, PolicyInput.delete, buildInput,
    List.exists_mem_cons_iff, List.not_mem_nil, false_and, exists_false, or_false, fires_mk,
    List.all_cons, List.all_nil, Bool.and_true, holds_negate, holds_given, holds_some,
    equal_given_left, unequal_given_left, unequal_given_right, less_given_left, less_given_right,
    atLeast_given_left, atLeast_given_right, plus_given_left, plus_given_right, plus_some,
    holds_equal, holds_less, holds_unequal, holds_atLeast, Bool.and_eq_true, decide_eq_true_eq,
    Bool.not_eq_true', Bool.and_eq_false_iff, decide_eq_false_iff_not, not_not, SpendingStands]

theorem merchant_stands_iff :
    Merchant.deny ((buildInput e).delete D) ≠ [] ↔ MerchantStands D e := by
  simp only [Merchant.deny, partialSet_ne_nil, PolicyInput.delete, buildInput,
    List.exists_mem_cons_iff, List.not_mem_nil, false_and, exists_false, or_false, fires_mk,
    List.all_cons, List.all_nil, Bool.and_true, holds_negate, holds_given, holds_some,
    equal_given_left, less_given_right, isIn_given_left, isIn_given_right, holds_isIn, count_given,
    count_some, holds_equal, holds_less, Bool.and_eq_true, decide_eq_true_eq, Bool.not_eq_true',
    Bool.and_eq_false_iff, decide_eq_false_iff_not, not_not, List.length_pos_iff, MerchantStands]

theorem agent_stands_iff :
    AgentScope.deny ((buildInput e).delete D) ≠ [] ↔ AgentStands D e := by
  have hcodes : ∀ codes : List String, (∃ r ∈ codes.map fun code =>
      (⟨code, [equal (without D .identityValid (some e.identity.valid)) (some false)]⟩ :
        Rule String), r.fires = true) → .identityValid ∉ D ∧ e.identity.valid = false := by
    intro codes h
    obtain ⟨r, hr, hf⟩ := h
    obtain ⟨code, -, rfl⟩ := List.mem_map.1 hr
    simpa using hf
  have hsplit : ∀ (rules rules' rules'' : List (Rule String)),
      (∃ r ∈ rules ++ rules' ++ rules'', r.fires = true) ↔ (∃ r ∈ rules, r.fires = true) ∨
        (∃ r ∈ rules', r.fires = true) ∨ ∃ r ∈ rules'', r.fires = true := by
    intro rules rules' rules''
    simp only [List.mem_append, or_and_right, exists_or, or_assoc]
  rw [AgentScope.deny, partialSet_ne_nil, hsplit]
  have hfirst : (∃ r ∈ [(⟨"INVALID_IDENTITY", [equal ((buildInput e).delete D).identity.valid
      (some false)]⟩ : Rule String)], r.fires = true) ↔
      .identityValid ∉ D ∧ e.identity.valid = false := by
    simp [PolicyInput.delete, buildInput]
  have hrest : (∃ r ∈ (((buildInput e).delete D).identity.reasonCodes.getD []).map fun code =>
      (⟨code, [equal ((buildInput e).delete D).identity.valid (some false)]⟩ : Rule String),
        r.fires = true) → .identityValid ∉ D ∧ e.identity.valid = false := hcodes _
  rw [hfirst]
  -- the codes of an invalid identity deny only when it denies itself
  have habsorb : ∀ {p q r : Prop}, (q → p) → (p ∨ q ∨ r ↔ p ∨ r) := by
    intro p q r h
    constructor
    · rintro (hp | hq | hr)
      · exact .inl hp
      · exact .inl (h hq)
      · exact .inr hr
    · rintro (hp | hr)
      · exact .inl hp
      · exact .inr (.inr hr)
  rw [habsorb hrest]
  simp only [PolicyInput.delete, buildInput, List.exists_mem_cons_iff, List.not_mem_nil, false_and,
    exists_false, or_false, fires_mk, List.all_cons, List.all_nil, Bool.and_true, holds_negate,
    holds_given, holds_some, equal_given_left, unequal_given_left, unequal_given_right,
    less_given_right, isIn_given_left, isIn_given_right, holds_isIn, count_given, count_some,
    holds_equal, holds_less, holds_unequal, Bool.and_eq_true, decide_eq_true_eq, Bool.not_eq_true',
    Bool.and_eq_false_iff, decide_eq_false_iff_not, not_not, List.length_pos_iff, AgentStands]

theorem approval_stands_iff :
    Approvals.deny ((buildInput e).delete D) ≠ [] ↔ ApprovalStands D e := by
  simp only [Approvals.deny, partialSet_ne_nil, PolicyInput.delete, buildInput,
    List.exists_mem_cons_iff, List.not_mem_nil, false_and, exists_false, or_false, fires_mk,
    List.all_cons, List.all_nil, Bool.and_true, holds_given, holds_some, map_given, Option.map_some,
    unequal_given_right, holds_equal, holds_unequal, Bool.and_eq_true, decide_eq_true_eq,
    ApprovalStands]

theorem duplicate_stands_iff :
    Duplicates.deny ((buildInput e).delete D) ≠ [] ↔ DuplicateStands D e := by
  simp only [Duplicates.deny, partialSet_ne_nil, PolicyInput.delete, buildInput,
    List.exists_mem_cons_iff, List.not_mem_nil, false_and, exists_false, or_false, fires_mk,
    List.all_cons, List.all_nil, Bool.and_true, holds_given, equal_given_left, holds_equal,
    Bool.and_eq_true, decide_eq_true_eq, DuplicateStands]

theorem escalation_stands_iff :
    holds (Injection.escalateDegradedToHuman ((buildInput e).delete D)) = true ↔
      EscalationStands D e := by
  simp only [Injection.escalateDegradedToHuman, holds_completeRule, PolicyInput.delete, buildInput,
    List.all_cons, List.all_nil, Bool.and_true, holds_negate, holds_given, holds_some,
    equal_given_left, less_given_left, holds_equal, holds_less, Bool.and_eq_true, decide_eq_true_eq,
    Bool.not_eq_true', Bool.and_eq_false_iff, decide_eq_false_iff_not, not_not,
    Thresholds.injectionReview, EscalationStands]

theorem injection_stands_iff :
    Injection.deny ((buildInput e).delete D) ≠ [] ↔ InjectionStands D e := by
  have hesc := escalation_stands_iff D e
  simp only [Injection.deny, partialSet_ne_nil, List.exists_mem_cons_iff, List.not_mem_nil,
    false_and, exists_false, or_false, fires_mk, List.all_cons, List.all_nil, Bool.and_true,
    holds_negate, Bool.and_eq_true, Bool.not_eq_true', ← Bool.not_eq_true, hesc]
  simp only [PolicyInput.delete, buildInput, holds_given, holds_some, equal_given_left,
    atLeast_given_left, holds_equal, holds_atLeast, Bool.and_eq_true, decide_eq_true_eq,
    Thresholds.injectionHardBlock, InjectionStands, not_and_or, not_not, Bool.not_eq_true]

theorem review_stands_iff :
    approvalReasons ((buildInput e).delete D) ≠ [] ↔ ReviewStands D e := by
  have hesc := escalation_stands_iff D e
  have hratio : holds (atLeast (quotient (some e.ctx.transactionsLastHour)
      (some e.ctx.maxTransactionsPerHour)) (some Thresholds.velocityReviewRatio)) = true ↔
        e.ctx.maxTransactionsPerHour ≠ 0 ∧
        (8 / 10 : ℚ) ≤ e.ctx.transactionsLastHour / e.ctx.maxTransactionsPerHour := by
    unfold quotient
    by_cases hz : e.ctx.maxTransactionsPerHour = 0
    · simp [hz, atLeast, Rego.compare]
    · simp [hz, Thresholds.velocityReviewRatio]
  simp only [approvalReasons, union_ne_nil, Injection.requireApproval, Spending.requireApproval,
    Merchant.requireApproval, Approvals.requireApproval, partialSet_ne_nil, List.exists_mem_cons_iff, List.not_mem_nil,
    false_and, exists_false, or_false, fires_mk, List.all_cons, List.all_nil, Bool.and_true,
    Bool.and_eq_true, hesc, or_assoc]
  simp only [PolicyInput.delete, buildInput, holds_given, holds_some, holds_negate,
    less_given_left, less_given_right, atLeast_given_left, atLeast_given_right,
    quotient_given_left, quotient_given_right, holds_less, holds_atLeast, Bool.and_eq_true,
    decide_eq_true_eq, hratio, Bool.not_eq_true', Bool.and_eq_false_iff, decide_eq_false_iff_not,
    not_not, Thresholds.injectionReview, Thresholds.injectionHardBlock, Thresholds.scoreReview,
    ReviewStands]

theorem approval_answers_iff :
    Satisfied ((buildInput e).delete D) ↔ ApprovalAnswers D e := by
  simp only [Satisfied, approvalSatisfied, holds_completeRule, PolicyInput.delete, buildInput,
    List.all_cons, List.all_nil, Bool.and_true, holds_given, holds_some, map_given, Option.map_some,
    equal_given_right, holds_equal, Bool.and_eq_true, decide_eq_true_eq, ApprovalAnswers]

theorem hasResult_iff :
    HasResult ((buildInput e).delete D) ↔ .policyVersion ∉ D ∧ .weightedScore ∉ D := by
  simp [HasResult, PolicyInput.delete, buildInput]

end Packages

/-! ## The decision -/

/-- A document is not allowed exactly when a refusal stands. -/
theorem refused_iff (D : List Field) (e : Evidence) :
    decided ((buildInput e).delete D) ≠ .allow ↔ Refused D e := by
  have hdeny : denyReasons ((buildInput e).delete D) ≠ [] ↔
      InjectionStands D e ∨ SpendingStands D e ∨ MerchantStands D e ∨ AgentStands D e ∨
        ApprovalStands D e ∨ DuplicateStands D e := by
    rw [ne_eq, denyReasons_eq_nil, ← injection_stands_iff, ← spending_stands_iff,
      ← merchant_stands_iff, ← agent_stands_iff, ← approval_stands_iff, ← duplicate_stands_iff]
    simp only [not_and_or, ne_eq]
  rw [ne_eq, decided_eq_allow_iff, hasResult_iff, not_and_or, not_and_or, not_and_or, not_or,
    approval_answers_iff, not_not, not_not, ← ne_eq, hdeny, ← ne_eq, review_stands_iff, Refused]

/-- A deletion keeps a refusal: what is not allowed on the whole document is not allowed without the
fields of `D`. -/
def FailsClosed (D : List Field) (e : Evidence) : Prop :=
  decided (buildInput e) ≠ .allow → decided ((buildInput e).delete D) ≠ .allow

end AgentPay.Properties
