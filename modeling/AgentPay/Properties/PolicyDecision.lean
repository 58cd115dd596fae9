import AgentPay.Gateway.Pdp

/-!
# What the policy decides

The decision of the policy on the evidence the gateway marshals, stated on the money values before
their conversion. `Compliant` collects the conditions under which no package denies, `NeedsReview`
the reasons to ask a human, and `ApprovalSatisfied` says that the presented approval answers them.
Each package is reduced to its conditions by one lemma; `policy_decides` assembles them.
-/

set_option autoImplicit false

namespace AgentPay.Properties

open AgentPay.Library AgentPay.Library.Rego AgentPay.Policies AgentPay.Gateway

/-! ## The conditions -/

/-- The money values of the evidence are convertible. -/
structure ConvertibleMoney (e : Evidence) : Prop where
  amount : Convertible e.txn.amount
  perTransactionLimit : Convertible e.ctx.perTransactionLimit
  dailyLimit : Convertible e.ctx.dailyLimit
  approvalThreshold : Convertible e.ctx.approvalThreshold
  spentToday : Convertible e.ctx.spentToday

/-- The finding is a valid, unexpired approval bound to this transaction. The bound amount of a
finding is in minor units. -/
structure ApprovalHolds (e : Evidence) : Prop where
  valid : e.approval.valid = true
  unexpired : e.approval.expired = false
  amount : ∃ n : ℤ, e.approval.boundAmount = some n ∧ (n : ℚ) = e.txn.amount.toRat * 100
  merchant : e.approval.boundMerchantId = some e.txn.merchantId
  currency : e.approval.boundCurrency = some e.txn.currency
  cart : e.approval.boundCartHash = some e.txn.cartHash

/-- An approval is presented and holds. -/
def ApprovalSatisfied (e : Evidence) : Prop := e.approval.present = true ∧ ApprovalHolds e

/-- A degraded classifier whose request is escalated to a human. -/
def EscalatedToHuman (e : Evidence) : Prop :=
  e.analysis.classifierDegraded = true ∧ e.degradedClassifierRequiresReview = true ∧
    e.allowDegradedClassifier = false ∧ e.analysis.deterministicConfidence < 5 / 10

/-- The delegation's budget admits the transaction. -/
structure WithinBudget (e : Evidence) : Prop where
  policyBound : e.ctx.policyFound = true
  notRevoked : e.ctx.policyRevoked = false
  currency : e.txn.currency = e.ctx.policyCurrency
  perTransaction : e.txn.amount.toRat ≤ e.ctx.perTransactionLimit.toRat
  daily : e.ctx.spentToday.toRat + e.txn.amount.toRat ≤ e.ctx.dailyLimit.toRat
  velocity : e.ctx.transactionsLastHour < e.ctx.maxTransactionsPerHour

/-- The merchant is acceptable to the policy. -/
structure MerchantAcceptable (e : Evidence) : Prop where
  notBlocked : e.txn.merchantId ∉ e.ctx.blockedMerchants
  inAllowList : e.ctx.allowedMerchants ≠ [] → e.txn.merchantId ∈ e.ctx.allowedMerchants
  verifiedIfRequired : e.ctx.requireVerifiedMerchant = true → e.ctx.merchantVerified = true
  claimHonest : e.txn.merchantVerifiedClaim = true → e.ctx.merchantKnown = true →
    e.ctx.merchantVerified = true

/-- The agent acts within its delegation. -/
structure AgentAuthorized (e : Evidence) : Prop where
  identityValid : e.identity.valid = true
  identityUser : e.txn.userId = e.identity.userId
  registered : e.ctx.agentRegistered = true
  active : e.ctx.agentActive = true
  scope : "payments:authorize" ∈ e.txn.agentScopes
  category : e.ctx.agentAllowedCategories ≠ [] →
    e.ctx.merchantCategory ∈ e.ctx.agentAllowedCategories

/-- The content analysis does not stand in the way. -/
structure ContentAcceptable (e : Evidence) : Prop where
  noInjection : e.analysis.injectionConfidence < 85 / 100
  classifier : e.analysis.classifierDegraded = true →
    e.allowDegradedClassifier = true ∨ EscalatedToHuman e

/-- No package denies. -/
structure Compliant (e : Evidence) : Prop where
  budget : WithinBudget e
  merchant : MerchantAcceptable e
  agent : AgentAuthorized e
  content : ContentAcceptable e
  noIdempotencyConflict : e.duplicate.idempotencyConflict = false
  noFingerprintConflict : e.duplicate.fingerprintConflict = false
  approval : e.approval.present = true → ApprovalHolds e

/-- Some package asks for a human. -/
def NeedsReview (e : Evidence) : Prop :=
  EscalatedToHuman e ∨
  (5 / 10 ≤ e.analysis.injectionConfidence ∧ e.analysis.injectionConfidence < 85 / 100) ∨
  (e.ctx.policyFound = true ∧ e.ctx.approvalThreshold.toRat ≤ e.txn.amount.toRat) ∨
  (0 < e.ctx.maxTransactionsPerHour ∧
    (8 / 10 : ℚ) ≤ e.ctx.transactionsLastHour / e.ctx.maxTransactionsPerHour ∧
    e.ctx.transactionsLastHour < e.ctx.maxTransactionsPerHour) ∨
  (e.ctx.merchantKnown = false ∧ e.ctx.requireVerifiedMerchant = false) ∨
  (6 / 10 ≤ e.risk.signals.merchantRiskScore ∧ e.ctx.merchantKnown = true ∧
    e.ctx.merchantVerified = true) ∨
  60 ≤ e.risk.weightedScore

/-! ## Comparisons of minor units -/

theorem toMinorUnits_le_iff {a b : Decimal} (ha : Convertible a) (hb : Convertible b) :
    toMinorUnits a ≤ toMinorUnits b ↔ a.toRat ≤ b.toRat := by
  rw [← Int.cast_le (R := ℚ), toMinorUnits_of_convertible ha, toMinorUnits_of_convertible hb]
  constructor <;> intro h <;> linarith

theorem toMinorUnits_add_le_iff {a b c : Decimal} (ha : Convertible a) (hb : Convertible b)
    (hc : Convertible c) :
    toMinorUnits a + toMinorUnits b ≤ toMinorUnits c ↔ a.toRat + b.toRat ≤ c.toRat := by
  rw [← Int.cast_le (R := ℚ), Int.cast_add, toMinorUnits_of_convertible ha,
    toMinorUnits_of_convertible hb, toMinorUnits_of_convertible hc]
  constructor <;> intro h <;> linarith

/-- The binding of the amount, on the value instead of its minor units. -/
theorem boundAmount_iff {e : Evidence} (h : Convertible e.txn.amount) :
    e.approval.boundAmount = some (toMinorUnits e.txn.amount) ↔
      ∃ n : ℤ, e.approval.boundAmount = some n ∧ (n : ℚ) = e.txn.amount.toRat * 100 := by
  rw [← toMinorUnits_of_convertible h]
  constructor
  · exact fun hb => ⟨_, hb, rfl⟩
  · rintro ⟨n, hb, hn⟩
    rw [hb, Int.cast_injective hn]

/-! ## The packages -/

/-- The spending package compares minor units. -/
theorem spending_deny_minor (e : Evidence) :
    Spending.deny (buildInput e) = [] ↔
      e.ctx.policyFound = true ∧ e.ctx.policyRevoked = false ∧
      e.txn.currency = e.ctx.policyCurrency ∧
      toMinorUnits e.txn.amount ≤ toMinorUnits e.ctx.perTransactionLimit ∧
      toMinorUnits e.ctx.spentToday + toMinorUnits e.txn.amount ≤ toMinorUnits e.ctx.dailyLimit ∧
      e.ctx.transactionsLastHour < e.ctx.maxTransactionsPerHour := by
  simp only [Spending.deny, partialSet_eq_nil, buildInput, List.forall_mem_cons, fires_mk,
    List.all_cons, List.all_nil, Bool.and_true, holds_negate, holds_equal, holds_less,
    holds_unequal, holds_atLeast, plus_some, holds_some, List.not_mem_nil, false_implies,
    implies_true, and_true, Bool.and_eq_false_iff, decide_eq_false_iff_not, not_lt, not_not,
    Bool.not_eq_eq_eq_not, Bool.not_false, ne_eq, Bool.not_eq_true, not_le]
  constructor
  · rintro ⟨hp, hr, h₁, h₂, h₃, hv⟩
    simp only [hp, Bool.true_eq_false, false_or] at h₁ h₂ h₃
    exact ⟨hp, hr, h₃, h₁, h₂, hv⟩
  · rintro ⟨hp, hr, hc, h₁, h₂, hv⟩
    exact ⟨hp, hr, .inr h₁, .inr h₂, .inr hc, hv⟩

theorem spending_deny_iff {e : Evidence} (h : ConvertibleMoney e) :
    Spending.deny (buildInput e) = [] ↔ WithinBudget e := by
  rw [spending_deny_minor, toMinorUnits_le_iff h.amount h.perTransactionLimit,
    toMinorUnits_add_le_iff h.spentToday h.amount h.dailyLimit]
  constructor
  · rintro ⟨hp, hr, hc, h₁, h₂, hv⟩
    exact ⟨hp, hr, hc, h₁, h₂, hv⟩
  · rintro ⟨hp, hr, hc, h₁, h₂, hv⟩
    exact ⟨hp, hr, hc, h₁, h₂, hv⟩

theorem merchant_deny_iff (e : Evidence) :
    Merchant.deny (buildInput e) = [] ↔ MerchantAcceptable e := by
  simp only [Merchant.deny, partialSet_eq_nil, buildInput, List.forall_mem_cons, fires_mk,
    List.all_cons, List.all_nil, Bool.and_true, holds_negate, holds_equal, holds_less, holds_isIn,
    count_some, holds_some, List.not_mem_nil, false_implies, implies_true, and_true,
    Bool.and_eq_false_iff, decide_eq_false_iff_not, List.length_pos_iff, Bool.not_eq_false',
    decide_eq_true_eq]
  constructor
  · rintro ⟨h₁, h₂, h₃, h₄⟩
    exact ⟨h₁, fun hne => h₂.resolve_left (not_not.2 hne),
      fun hr => h₃.resolve_left (not_not.2 hr), fun hc hk => by
        rcases h₄ with h₄ | h₄ | h₄
        · exact absurd hc h₄
        · rw [hk] at h₄; exact absurd h₄ (by decide)
        · exact h₄⟩
  · rintro ⟨h₁, h₂, h₃, h₄⟩
    refine ⟨h₁, ?_, ?_, ?_⟩
    · rw [not_ne_iff]; exact or_iff_not_imp_left.2 h₂
    · exact or_iff_not_imp_left.2 fun hr => h₃ (not_not.1 hr)
    · by_cases hc : e.txn.merchantVerifiedClaim = true
      · cases hk : e.ctx.merchantKnown with
        | false => exact .inr (.inl rfl)
        | true => exact .inr (.inr (h₄ hc hk))
      · exact .inl hc

theorem agentScope_deny_iff (e : Evidence) :
    AgentScope.deny (buildInput e) = [] ↔ AgentAuthorized e := by
  simp only [AgentScope.deny, partialSet_eq_nil, buildInput, List.cons_append, List.nil_append,
    Option.getD_some, List.forall_mem_cons, List.forall_mem_append, List.forall_mem_map, fires_mk,
    List.all_cons, List.all_nil, Bool.and_true, holds_negate, holds_equal, holds_unequal,
    holds_less, holds_isIn, count_some, holds_some, List.not_mem_nil, false_implies, implies_true,
    and_true, Bool.and_eq_false_iff, decide_eq_false_iff_not, List.length_pos_iff,
    Bool.not_eq_false', decide_eq_true_eq, Bool.not_eq_false, ne_eq, not_not]
  constructor
  · rintro ⟨hv, -, hr, ha, hs, hc, hu⟩
    have hreg : e.ctx.agentRegistered = true := hr.resolve_left (by simp [hv])
    exact ⟨hv, hu, hreg, ha.resolve_left (by simp [hreg]), hs,
      fun hne => hc.resolve_left hne⟩
  · rintro ⟨hv, hu, hr, ha, hs, hc⟩
    exact ⟨hv, fun _ _ => hv, .inr hr, .inr ha, hs, or_iff_not_imp_left.2 hc, hu⟩

theorem holds_escalate_iff (e : Evidence) :
    holds (Injection.escalateDegradedToHuman (buildInput e)) = true ↔ EscalatedToHuman e := by
  simp [Injection.escalateDegradedToHuman, buildInput, EscalatedToHuman,
    Thresholds.injectionReview]

theorem injection_deny_iff (e : Evidence) :
    Injection.deny (buildInput e) = [] ↔ ContentAcceptable e := by
  simp only [Injection.deny, partialSet_eq_nil, List.forall_mem_cons, fires_mk, List.all_cons,
    List.all_nil, Bool.and_true, holds_negate, List.not_mem_nil, false_implies, implies_true,
    and_true, Bool.and_eq_false_iff, Bool.not_eq_false', holds_escalate_iff]
  simp only [buildInput, holds_atLeast, holds_equal, holds_some, decide_eq_false_iff_not, not_le,
    Thresholds.injectionHardBlock]
  constructor
  · rintro ⟨hi, hc⟩
    exact ⟨hi, fun hd => hc.resolve_left (not_not.2 hd)⟩
  · rintro ⟨hi, hc⟩
    exact ⟨hi, or_iff_not_imp_left.2 fun hd => hc (not_not.1 hd)⟩

theorem approvals_deny_iff {e : Evidence} (h : Convertible e.txn.amount) :
    Approvals.deny (buildInput e) = [] ↔ (e.approval.present = true → ApprovalHolds e) := by
  simp only [Approvals.deny, partialSet_eq_nil, buildInput, List.forall_mem_cons, fires_mk,
    List.all_cons, List.all_nil, Bool.and_true, holds_equal, holds_unequal, holds_some,
    Option.map_some, List.not_mem_nil, false_implies, implies_true, and_true,
    Bool.and_eq_false_iff, decide_eq_false_iff_not, ne_eq, not_not, boundAmount_iff h]
  cases hp : e.approval.present with
  | false => simp
  | true =>
      simp only [Bool.true_eq_false, false_or, true_implies, Bool.not_eq_true, Bool.not_eq_false]
      constructor
      · rintro ⟨ha, hm, hc, hx, he, hv⟩
        exact ⟨hv, he, ha, hm, hc, hx⟩
      · rintro ⟨hv, he, ha, hm, hc, hx⟩
        exact ⟨ha, hm, hc, hx, he, hv⟩

theorem duplicates_deny_iff (e : Evidence) :
    Duplicates.deny (buildInput e) = [] ↔
      e.duplicate.idempotencyConflict = false ∧ e.duplicate.fingerprintConflict = false := by
  simp [Duplicates.deny, partialSet_eq_nil, buildInput]

/-- No package denies exactly when the evidence is compliant. -/
theorem denyReasons_iff {e : Evidence} (h : ConvertibleMoney e) :
    denyReasons (buildInput e) = [] ↔ Compliant e := by
  simp only [denyReasons, union_eq_nil, List.forall_mem_cons, List.not_mem_nil, false_implies,
    implies_true, and_true, injection_deny_iff, spending_deny_iff h, merchant_deny_iff,
    agentScope_deny_iff, approvals_deny_iff h.amount, duplicates_deny_iff]
  constructor
  · rintro ⟨hi, hs, hm, ha, hp, hd, hf⟩
    exact ⟨hs, hm, ha, hi, hd, hf, hp⟩
  · rintro ⟨hs, hm, ha, hi, hd, hf, hp⟩
    exact ⟨hi, hs, hm, ha, hp, hd, hf⟩

/-- Some package asks for a human, with the amount compared in minor units as the policy does. -/
def ReviewAsked (e : Evidence) : Prop :=
  EscalatedToHuman e ∨
  (5 / 10 ≤ e.analysis.injectionConfidence ∧ e.analysis.injectionConfidence < 85 / 100) ∨
  (e.ctx.policyFound = true ∧
    toMinorUnits e.ctx.approvalThreshold ≤ toMinorUnits e.txn.amount) ∨
  (0 < e.ctx.maxTransactionsPerHour ∧
    (8 / 10 : ℚ) ≤ e.ctx.transactionsLastHour / e.ctx.maxTransactionsPerHour ∧
    e.ctx.transactionsLastHour < e.ctx.maxTransactionsPerHour) ∨
  (e.ctx.merchantKnown = false ∧ e.ctx.requireVerifiedMerchant = false) ∨
  (6 / 10 ≤ e.risk.signals.merchantRiskScore ∧ e.ctx.merchantKnown = true ∧
    e.ctx.merchantVerified = true) ∨
  60 ≤ e.risk.weightedScore

theorem approvalReasons_minor (e : Evidence) :
    approvalReasons (buildInput e) = [] ↔ ¬ ReviewAsked e := by
  have hratio : holds (atLeast (quotient (some e.ctx.transactionsLastHour)
      (some e.ctx.maxTransactionsPerHour)) (some Thresholds.velocityReviewRatio)) = true ↔
      e.ctx.maxTransactionsPerHour ≠ 0 ∧
        (8 / 10 : ℚ) ≤ e.ctx.transactionsLastHour / e.ctx.maxTransactionsPerHour := by
    unfold quotient
    by_cases hz : e.ctx.maxTransactionsPerHour = 0
    · simp [hz, atLeast, Rego.compare]
    · simp [hz, Thresholds.velocityReviewRatio]
  simp only [approvalReasons, union_eq_nil, Injection.requireApproval, Spending.requireApproval,
    Merchant.requireApproval, Approvals.requireApproval, partialSet_eq_nil, List.forall_mem_cons,
    List.not_mem_nil, false_implies, implies_true, and_true, fires_mk, List.all_cons, List.all_nil,
    Bool.and_true, ← Bool.not_eq_true, holds_escalate_iff, Bool.and_eq_true]
  simp only [buildInput, hratio, holds_atLeast, holds_less, holds_negate, holds_some,
    decide_eq_true_eq, Thresholds.injectionReview, Thresholds.injectionHardBlock,
    Thresholds.scoreReview, ReviewAsked, Bool.not_eq_eq_eq_not, Bool.not_true]
  constructor
  · rintro ⟨⟨h₁, h₂⟩, ⟨h₃, h₄⟩, ⟨h₅, h₆⟩, h₇⟩ (c | c | c | ⟨c, c', c''⟩ | c | c | c)
    · exact h₁ c
    · exact h₂ c
    · exact h₃ c
    · exact h₄ ⟨c, ⟨c.ne', c'⟩, c''⟩
    · exact h₅ c
    · exact h₆ c
    · exact h₇ c
  · intro hn
    refine ⟨⟨fun c => hn (.inl c), fun c => hn (.inr (.inl c))⟩,
      ⟨fun c => hn (.inr (.inr (.inl c))), ?_⟩,
      ⟨fun c => hn (.inr (.inr (.inr (.inr (.inl c))))),
        fun c => hn (.inr (.inr (.inr (.inr (.inr (.inl c))))))⟩,
      fun c => hn (.inr (.inr (.inr (.inr (.inr (.inr c))))))⟩
    rintro ⟨c, ⟨-, c'⟩, c''⟩
    exact hn (.inr (.inr (.inr (.inl ⟨c, c', c''⟩))))

/-- Some package asks for a human exactly when the evidence needs review. -/
theorem approvalReasons_iff {e : Evidence} (h : ConvertibleMoney e) :
    approvalReasons (buildInput e) = [] ↔ ¬ NeedsReview e := by
  rw [approvalReasons_minor, ReviewAsked, NeedsReview,
    toMinorUnits_le_iff h.approvalThreshold h.amount]

/-- The policy finds the review requirement satisfied exactly when an approval is presented and
holds. -/
theorem satisfied_iff {e : Evidence} (h : Convertible e.txn.amount) :
    Satisfied (buildInput e) ↔ ApprovalSatisfied e := by
  simp only [Satisfied, approvalSatisfied, holds_completeRule, buildInput, List.all_cons,
    List.all_nil, Bool.and_true, holds_equal, holds_some, Option.map_some, Bool.and_eq_true,
    decide_eq_true_eq, boundAmount_iff h, ApprovalSatisfied]
  constructor
  · rintro ⟨hp, hv, he, ha, hm, hc, hx⟩
    exact ⟨hp, hv, he, ha, hm, hc, hx⟩
  · rintro ⟨hp, hv, he, ha, hm, hc, hx⟩
    exact ⟨hp, hv, he, ha, hm, hc, hx⟩

/-! ## The decision -/

/-- The result is defined and is one of the three decisions: a block when the evidence is not
compliant, and otherwise an allowance unless a needed review is not answered by an approval. -/
def DecidedAsSpecified (e : Evidence) : Prop :=
  ∃ r, result (buildInput e) = some r ∧
    (r.decision = "ALLOW" ∨ r.decision = "REQUIRE_APPROVAL" ∨ r.decision = "BLOCK") ∧
    (r.decision = "ALLOW" ↔ Compliant e ∧ (¬ NeedsReview e ∨ ApprovalSatisfied e)) ∧
    (r.decision = "REQUIRE_APPROVAL" ↔ Compliant e ∧ NeedsReview e ∧ ¬ ApprovalSatisfied e) ∧
    (r.decision = "BLOCK" ↔ ¬ Compliant e)

/-- The policy decides as specified on convertible money. -/
theorem policy_decides (e : Evidence) (h : ConvertibleMoney e) : DecidedAsSpecified e := by
  obtain ⟨r, hr, hd, -⟩ := @result_of_context (buildInput e) _ _ rfl rfl
  have hallow := decision_eq_allow_iff (buildInput e)
  have hreview := decision_eq_requireApproval_iff (buildInput e)
  have hblock := decision_eq_block_iff (buildInput e)
  rw [hd, Option.some.injEq] at hallow hreview hblock
  rw [denyReasons_iff h, approvalReasons_iff h, satisfied_iff h.amount] at hallow
  rw [denyReasons_iff h, ne_eq, approvalReasons_iff h, not_not, satisfied_iff h.amount] at hreview
  rw [ne_eq, denyReasons_iff h] at hblock
  refine ⟨r, hr, ?_, hallow, hreview, hblock⟩
  rw [hallow, hreview, hblock]
  by_cases hc : Compliant e
  · by_cases ha : ¬ NeedsReview e ∨ ApprovalSatisfied e
    · exact .inl ⟨hc, ha⟩
    · rw [not_or, not_not] at ha
      exact .inr (.inl ⟨hc, ha⟩)
  · exact .inr (.inr hc)

/-- The evidence of a clean request for an amount under a policy with the given limit for one
transaction, twice as much for a day, and no review below the day's limit. -/
def cleanEvidence (amount limit : ℕ) : Evidence where
  txn := {
    paymentAuthorizationId := 1
    idempotencyKey := "key-0001"
    payloadHash := ""
    fingerprint := ""
    userId := "u"
    agentId := "a"
    delegationId := "d"
    agentScopes := ["payments:authorize"]
    merchantId := "m"
    merchantVerifiedClaim := true
    amount := .ofNat amount
    currency := "USD"
    cartHash := ""
    itemCount := 1
    untrusted := ⟨"", .officialApi, "", "", ""⟩
    approvalToken := none }
  ctx := {
    policyFound := true
    policyVersion := "v1"
    perTransactionLimit := .ofNat limit
    dailyLimit := .ofNat (2 * limit)
    approvalThreshold := .ofNat (2 * limit)
    merchantKnown := true
    merchantVerified := true
    merchantCategory := "c"
    merchantRegistryRisk := 0
    agentRegistered := true
    agentActive := true }
  analysis := { injectionConfidence := 0 }
  risk := ⟨{}, 0, "v1"⟩
  identity := ⟨true, "u", []⟩
  duplicate := {}
  approval := {}
  allowDegradedClassifier := false
  degradedClassifierRequiresReview := true

theorem policy_decides_clean : ConvertibleMoney (cleanEvidence 3 5) ∧
    DecidedAsSpecified (cleanEvidence 3 5) := by
  have hconv : ∀ n : ℕ, n < 10 ^ 26 → Convertible (.ofNat n) := fun n hn =>
    ⟨⟨n * 100, by rw [Decimal.toRat_ofNat]; norm_cast⟩, by
      rw [Decimal.toRat_ofNat, Nat.abs_cast]
      exact_mod_cast hn⟩
  have hmoney : ConvertibleMoney (cleanEvidence 3 5) :=
    ⟨hconv 3 (by norm_num), hconv 5 (by norm_num), hconv (2 * 5) (by norm_num),
      hconv (2 * 5) (by norm_num), hconv 0 (by norm_num)⟩
  exact ⟨hmoney, policy_decides _ hmoney⟩

/-- The money values have at most two decimal places. -/
structure TwoPlaceMoney (e : Evidence) : Prop where
  amount : AtMostTwoPlaces e.txn.amount
  perTransactionLimit : AtMostTwoPlaces e.ctx.perTransactionLimit
  dailyLimit : AtMostTwoPlaces e.ctx.dailyLimit
  approvalThreshold : AtMostTwoPlaces e.ctx.approvalThreshold
  spentToday : AtMostTwoPlaces e.ctx.spentToday

/-- Two decimal places are not enough: one unit above a limit of `10^28` the conversion rounds the
amount down to the limit, and the policy allows it. -/
theorem rounds_down_to_limit : ¬ ∀ e : Evidence, TwoPlaceMoney e → DecidedAsSpecified e := by
  intro h
  have hplaces : ∀ n : ℕ, AtMostTwoPlaces (.ofNat n) := fun n =>
    ⟨n * 100, by rw [Decimal.toRat_ofNat]; norm_cast⟩
  obtain ⟨r, hr, -, hallow, -⟩ := h (cleanEvidence (10 ^ 28 + 1) (10 ^ 28))
    ⟨hplaces _, hplaces _, hplaces _, hplaces _, hplaces _⟩
  have hd : (result (buildInput (cleanEvidence (10 ^ 28 + 1) (10 ^ 28)))).map Result.decision =
      some "ALLOW" := by decide +kernel
  rw [hr, Option.map_some, Option.some.injEq] at hd
  have hle := (hallow.1 hd).1.budget.perTransaction
  simp only [cleanEvidence, Decimal.toRat_ofNat] at hle
  norm_num at hle

end AgentPay.Properties
