import AgentPay.Properties.Scenario
import AgentPay.Properties.Severity

/-!
# More danger never yields a milder decision

A request becomes more dangerous when its amount, its spend, its count or its injection evidence
grows, when the classifier degrades, or when a limit shrinks. The weighted score then does not
fall, and the decision is at least as severe (`more_danger`). Where a review reason disappears as
the evidence grows, a denial takes its place.
-/

set_option autoImplicit false

namespace AgentPay.Properties

open AgentPay.Library AgentPay.Library.Rego AgentPay.Policies AgentPay.Gateway

/-- The second request is the first one with more danger in the nine coordinates. -/
structure MoreDanger (x y : Facts) : Prop where
  same : y = { x with
    txn := { x.txn with amount := y.txn.amount }
    ctx := { x.ctx with
      spentToday := y.ctx.spentToday
      transactionsLastHour := y.ctx.transactionsLastHour
      perTransactionLimit := y.ctx.perTransactionLimit
      dailyLimit := y.ctx.dailyLimit
      approvalThreshold := y.ctx.approvalThreshold
      maxTransactionsPerHour := y.ctx.maxTransactionsPerHour }
    analysis := { x.analysis with
      injectionConfidence := y.analysis.injectionConfidence
      deterministicConfidence := y.analysis.deterministicConfidence
      classifierDegraded := y.analysis.classifierDegraded } }
  amount : x.txn.amount.toRat ≤ y.txn.amount.toRat
  spent : x.ctx.spentToday.toRat ≤ y.ctx.spentToday.toRat
  count : x.ctx.transactionsLastHour ≤ y.ctx.transactionsLastHour
  injection : x.analysis.injectionConfidence ≤ y.analysis.injectionConfidence
  deterministic : x.analysis.deterministicConfidence ≤ y.analysis.deterministicConfidence
  degraded : x.analysis.classifierDegraded = true → y.analysis.classifierDegraded = true
  perTransaction : y.ctx.perTransactionLimit.toRat ≤ x.ctx.perTransactionLimit.toRat
  daily : y.ctx.dailyLimit.toRat ≤ x.ctx.dailyLimit.toRat
  threshold : y.ctx.approvalThreshold.toRat ≤ x.ctx.approvalThreshold.toRat
  velocity : y.ctx.maxTransactionsPerHour ≤ x.ctx.maxTransactionsPerHour

/-- Positive amounts, non-negative spend and counts, and no approval presented. -/
structure Ordinary (x : Facts) : Prop where
  amount : 0 < x.txn.amount.toRat
  spent : 0 ≤ x.ctx.spentToday.toRat
  count : 0 ≤ x.ctx.transactionsLastHour
  noApproval : x.approval.present = false

/-! ## The score -/

section Score

variable {R : Runtime} {x y : Facts}

/-- Without a positive limit the budget signal is at its maximum. -/
theorem budgetAnomalyScore_of_no_limit (hR : R.PowerMonotone) {txn : CanonicalTransaction}
    {ctx : PolicyContext} (h : ctx.perTransactionLimit.toRat ≤ 0 ∨ ctx.dailyLimit.toRat ≤ 0) :
    budgetAnomalyScore R txn ctx = 1 := by
  have hone : clamp 1 = 1 := by exact_mod_cast clamp_of_thousandths (n := 1000) le_rfl
  rw [budgetAnomalyScore_eq]
  by_cases hlimit : ctx.policyFound = false ∨ ctx.perTransactionLimit.toRat ≤ 0
  · rw [if_pos hlimit]
  · rw [if_neg hlimit]
    rw [not_or, not_le] at hlimit
    have hdaily : dailyRatio txn ctx = 1 := by
      rcases h with h | h
      · exact absurd h (not_le.2 hlimit.2)
      · exact if_neg (not_lt.2 h)
    rw [hdaily]
    split
    · rfl
    · rename_i hratio
      rw [not_or, not_lt] at hratio
      rw [max_eq_right hratio.1, hR.one, hone]

theorem perTxnRatio_mono (hx : Ordinary x) (h : MoreDanger x y)
    (hlimit : 0 < y.ctx.perTransactionLimit.toRat) :
    0 ≤ perTxnRatio x.txn x.ctx ∧ perTxnRatio x.txn x.ctx ≤ perTxnRatio y.txn y.ctx := by
  have hlimit' := hlimit.trans_le h.perTransaction
  unfold perTxnRatio
  refine ⟨div_nonneg hx.amount.le hlimit'.le, ?_⟩
  calc x.txn.amount.toRat / x.ctx.perTransactionLimit.toRat
      ≤ x.txn.amount.toRat / y.ctx.perTransactionLimit.toRat :=
        div_le_div_of_nonneg_left hx.amount.le hlimit h.perTransaction
    _ ≤ y.txn.amount.toRat / y.ctx.perTransactionLimit.toRat :=
        div_le_div_of_nonneg_right h.amount hlimit.le

theorem dailyRatio_mono (hx : Ordinary x) (h : MoreDanger x y)
    (hlimit : 0 < y.ctx.dailyLimit.toRat) :
    dailyRatio x.txn x.ctx ≤ dailyRatio y.txn y.ctx := by
  have hlimit' := hlimit.trans_le h.daily
  have hnonneg : 0 ≤ x.ctx.spentToday.toRat + x.txn.amount.toRat :=
    add_nonneg hx.spent hx.amount.le
  unfold dailyRatio
  rw [if_pos hlimit, if_pos hlimit']
  calc (x.ctx.spentToday.toRat + x.txn.amount.toRat) / x.ctx.dailyLimit.toRat
      ≤ (x.ctx.spentToday.toRat + x.txn.amount.toRat) / y.ctx.dailyLimit.toRat :=
        div_le_div_of_nonneg_left hnonneg hlimit h.daily
    _ ≤ (y.ctx.spentToday.toRat + y.txn.amount.toRat) / y.ctx.dailyLimit.toRat :=
        div_le_div_of_nonneg_right (add_le_add h.spent h.amount) hlimit.le

theorem budgetAnomalyScore_mono (hR : R.PowerMonotone) (hx : Ordinary x) (h : MoreDanger x y) :
    budgetAnomalyScore R x.txn x.ctx ≤ budgetAnomalyScore R y.txn y.ctx := by
  have hupper := (budgetAnomalyScore_mem R x.txn x.ctx).2
  by_cases hlimit : y.ctx.perTransactionLimit.toRat ≤ 0 ∨ y.ctx.dailyLimit.toRat ≤ 0
  · rwa [budgetAnomalyScore_of_no_limit hR hlimit]
  · rw [not_or, not_le, not_le] at hlimit
    obtain ⟨hnonneg, hper⟩ := perTxnRatio_mono hx h hlimit.1
    have hday := dailyRatio_mono hx h hlimit.2
    have hfound : y.ctx.policyFound = x.ctx.policyFound := by rw [h.same]
    rw [budgetAnomalyScore_eq R y.txn]
    split
    · exact hupper
    · rename_i hbound
      split
      · exact hupper
      · rename_i hratio
        rw [not_or, not_lt, not_lt] at hratio
        -- both requests are within the limits, and the power keeps the order of their ratios
        have hbound' : ¬ (x.ctx.policyFound = false ∨ x.ctx.perTransactionLimit.toRat ≤ 0) := by
          rintro (hf | hl)
          · exact hbound (.inl (hfound.trans hf))
          · exact absurd (h.perTransaction.trans hl) (not_le.2 hlimit.1)
        have hratio' : ¬ (1 < perTxnRatio x.txn x.ctx ∨ 1 < dailyRatio x.txn x.ctx) := by
          rintro (hr | hr)
          · exact absurd (hr.trans_le hper) (not_lt.2 hratio.1)
          · exact absurd (hr.trans_le hday) (not_lt.2 hratio.2)
        rw [budgetAnomalyScore_eq, if_neg hbound', if_neg hratio']
        apply clamp_mono
        apply hR.mono
        · exact hnonneg.trans (le_max_left _ _)
        · exact max_le_max hper hday
        · exact max_le hratio.1 hratio.2

theorem velocityRiskScore_mono (hx : Ordinary x) (h : MoreDanger x y) :
    velocityRiskScore x.ctx ≤ velocityRiskScore y.ctx := by
  have hupper := (velocityRiskScore_mem x.ctx).2
  by_cases hmax : y.ctx.maxTransactionsPerHour ≤ 0
  · rwa [velocityRiskScore.eq_def y.ctx, if_pos hmax]
  · have hmax' : ¬ x.ctx.maxTransactionsPerHour ≤ 0 := fun hle => hmax (h.velocity.trans hle)
    rw [velocityRiskScore, velocityRiskScore, if_neg hmax, if_neg hmax']
    apply clamp_mono
    have hy : (0 : ℚ) < y.ctx.maxTransactionsPerHour := by exact_mod_cast not_le.1 hmax
    have hcount : (0 : ℚ) ≤ x.ctx.transactionsLastHour := by exact_mod_cast hx.count
    calc (x.ctx.transactionsLastHour : ℚ) / x.ctx.maxTransactionsPerHour
        ≤ x.ctx.transactionsLastHour / y.ctx.maxTransactionsPerHour :=
          div_le_div_of_nonneg_left hcount hy (by exact_mod_cast h.velocity)
      _ ≤ y.ctx.transactionsLastHour / y.ctx.maxTransactionsPerHour :=
          div_le_div_of_nonneg_right (by exact_mod_cast h.count) hy.le

/-- The weighted score does not fall. -/
theorem score_mono (hR : R.PowerMonotone) (hx : Ordinary x) (h : MoreDanger x y) :
    (x.evidence R).risk.weightedScore ≤ (y.evidence R).risk.weightedScore := by
  refine weightedScore_mono h.injection ?_ (budgetAnomalyScore_mono hR hx h) ?_
    (velocityRiskScore_mono hx h)
  · rw [h.same]
    rfl
  · rw [h.same]
    rfl

end Score

/-! ## The packages -/

section Packages

variable {R : Runtime} {x y : Facts}

theorem spending_deny_anti (h : MoreDanger x y) (hd : Spending.deny (y.input R) = []) :
    Spending.deny (x.input R) = [] := by
  obtain ⟨hp, hr, hc, hper, hday, hv⟩ := (spending_deny_minor _).1 hd
  have hcount := h.count
  have hmax := h.velocity
  have hamount := toMinorUnits_mono h.amount
  have hlimit := toMinorUnits_mono h.perTransaction
  have hspent := toMinorUnits_mono h.spent
  have hdaily := toMinorUnits_mono h.daily
  refine (spending_deny_minor _).2 ⟨?_, ?_, ?_, ?_, ?_, ?_⟩
  · rw [h.same] at hp
    exact hp
  · rw [h.same] at hr
    exact hr
  · rw [h.same] at hc
    exact hc
  · exact hamount.trans (hper.trans hlimit)
  · exact (add_le_add hspent hamount).trans (hday.trans hdaily)
  · exact hcount.trans_lt (hv.trans_le hmax)

/-- A request that the growth of the evidence would escalate or deny is not denied before. -/
theorem injection_deny_anti (h : MoreDanger x y) (hd : Injection.deny (y.input R) = []) :
    Injection.deny (x.input R) = [] := by
  obtain ⟨hi, hc⟩ := (injection_deny_iff _).1 hd
  refine (injection_deny_iff _).2 ⟨h.injection.trans_lt hi, ?_⟩
  intro hdegraded
  rcases hc (h.degraded hdegraded) with ha | ⟨-, hr, hn, hlow⟩
  · rw [h.same] at ha
    exact .inl ha
  · rw [h.same] at hr hn
    exact .inr ⟨hdegraded, hr, hn, h.deterministic.trans_lt hlow⟩

theorem deny_anti (hx : Ordinary x) (h : MoreDanger x y) (hd : denyReasons (y.input R) = []) :
    denyReasons (x.input R) = [] := by
  rw [denyReasons_eq_nil] at hd ⊢
  obtain ⟨hi, hs, hm, ha, -, hdup⟩ := hd
  refine ⟨injection_deny_anti h hi, spending_deny_anti h hs, ?_, ?_, ?_, ?_⟩
  · have hm' := (merchant_deny_iff _).1 hm
    rw [h.same] at hm'
    exact (merchant_deny_iff _).2 ⟨hm'.1, hm'.2, hm'.3, hm'.4⟩
  · have ha' := (agentScope_deny_iff _).1 ha
    rw [h.same] at ha'
    exact (agentScope_deny_iff _).2 ⟨ha'.1, ha'.2, ha'.3, ha'.4, ha'.5, ha'.6⟩
  · have hpresent := hx.noApproval
    simp [Approvals.deny, partialSet_eq_nil, Facts.input, Facts.evidence, buildInput, hpresent]
  · have hdup' := (duplicates_deny_iff _).1 hdup
    rw [h.same] at hdup'
    exact (duplicates_deny_iff _).2 hdup'

/-- A review reason of the first request is one of the second, unless the second is denied. -/
theorem review_mono (hR : R.PowerMonotone) (hx : Ordinary x) (h : MoreDanger x y)
    (hd : denyReasons (y.input R) = []) (hr : ReviewAsked (x.evidence R)) :
    ReviewAsked (y.evidence R) := by
  obtain ⟨hi, hs, -⟩ := (denyReasons_eq_nil _).1 hd
  obtain ⟨hhard, hclassifier⟩ := (injection_deny_iff _).1 hi
  obtain ⟨-, -, -, -, -, hvelocity⟩ := (spending_deny_minor _).1 hs
  rcases hr with hesc | ⟨hlow, -⟩ | ⟨hp, hthr⟩ | ⟨hpos, hratio, -⟩ | hunknown | helevated | hscore
  · -- an escalated degradation stays one while it is not denied
    obtain ⟨hdegraded, -, hn, -⟩ := hesc
    rcases hclassifier (h.degraded hdegraded) with ha | hesc'
    · rw [h.same] at ha
      exact absurd (ha.symm.trans hn) (by decide)
    · exact .inl hesc'
  · exact .inr (.inl ⟨hlow.trans h.injection, hhard⟩)
  · refine .inr (.inr (.inl ⟨?_, ?_⟩))
    · rw [h.same]
      exact hp
    · exact (toMinorUnits_mono h.threshold).trans (hthr.trans (toMinorUnits_mono h.amount))
  · -- below the allowance the used fraction grows
    have hcount := hx.count.trans h.count
    have hmax : 0 < y.ctx.maxTransactionsPerHour := hcount.trans_lt hvelocity
    have hmaxq : (0 : ℚ) < y.ctx.maxTransactionsPerHour := by exact_mod_cast hmax
    have hcountq : (0 : ℚ) ≤ x.ctx.transactionsLastHour := by exact_mod_cast hx.count
    refine .inr (.inr (.inr (.inl ⟨hmax, ?_, hvelocity⟩)))
    calc (8 / 10 : ℚ) ≤ x.ctx.transactionsLastHour / x.ctx.maxTransactionsPerHour := hratio
      _ ≤ x.ctx.transactionsLastHour / y.ctx.maxTransactionsPerHour :=
          div_le_div_of_nonneg_left hcountq hmaxq (by exact_mod_cast h.velocity)
      _ ≤ y.ctx.transactionsLastHour / y.ctx.maxTransactionsPerHour :=
          div_le_div_of_nonneg_right (by exact_mod_cast h.count) hmaxq.le
  · refine .inr (.inr (.inr (.inr (.inl ?_))))
    rw [h.same]
    exact hunknown
  · refine .inr (.inr (.inr (.inr (.inr (.inl ?_)))))
    rw [h.same]
    exact helevated
  · exact .inr (.inr (.inr (.inr (.inr (.inr (hscore.trans (score_mono hR hx h)))))))

theorem not_satisfied (hx : x.approval.present = false) : ¬ Satisfied (x.input R) := by
  simp [Satisfied, approvalSatisfied, Facts.input, Facts.evidence, buildInput, hx]

end Packages

/-! ## The decision -/

/-- **The weighted score does not fall, it lies between 0 and 100, and the decision is at least as
severe.** -/
theorem more_danger (R : Runtime) (hR : R.PowerMonotone) (x y : Facts) (hx : Ordinary x)
    (h : MoreDanger x y) :
    0 ≤ (x.evidence R).risk.weightedScore ∧
      (x.evidence R).risk.weightedScore ≤ (y.evidence R).risk.weightedScore ∧
      (y.evidence R).risk.weightedScore ≤ 100 ∧ AtLeastAsSevere (y.input R) (x.input R) := by
  refine ⟨(weightedScore_mem R _ _ _).1, score_mono hR hx h, (weightedScore_mem R _ _ _).2, ?_⟩
  rw [atLeastAsSevere_iff (y.hasResult R) (x.hasResult R)]
  have hy : y.approval.present = false := by
    rw [h.same]
    exact hx.noApproval
  refine ⟨deny_anti hx h, ?_⟩
  rintro hd (hr | hs)
  · left
    have hr' := (approvalReasons_minor _).1 hr
    exact (approvalReasons_minor _).2 fun hreview => hr' (review_mono hR hx h hd hreview)
  · exact absurd hs (not_satisfied hy)

/-- The facts of a clean request for an amount under a limit. -/
def cleanFacts (amount limit : ℕ) : Facts where
  txn := (cleanEvidence amount limit).txn
  ctx := (cleanEvidence amount limit).ctx
  analysis := (cleanEvidence amount limit).analysis
  identity := (cleanEvidence amount limit).identity
  duplicate := {}
  approval := {}
  allowDegradedClassifier := false
  degradedClassifierRequiresReview := true

/-- From the limit, where the power is at its fixed point, to an amount above it. -/
theorem more_danger_above_limit :
    (cleanFacts 5 5 |>.evidence Scenario.runtime).risk.weightedScore ≤
      (cleanFacts 6 5 |>.evidence Scenario.runtime).risk.weightedScore ∧
    AtLeastAsSevere ((cleanFacts 6 5).input Scenario.runtime)
      ((cleanFacts 5 5).input Scenario.runtime) := by
  have hR : Scenario.runtime.PowerMonotone :=
    ⟨fun _ _ _ h _ => h, fun _ h₀ h₁ => ⟨h₀, h₁⟩, rfl⟩
  have hx : Ordinary (cleanFacts 5 5) := by
    refine ⟨?_, ?_, ?_, rfl⟩
    · change 0 < (Decimal.ofNat 5).toRat
      rw [Decimal.toRat_ofNat]
      norm_num
    · change 0 ≤ (Decimal.ofNat 0).toRat
      rw [Decimal.toRat_ofNat]
      norm_num
    · exact le_rfl
  have h : MoreDanger (cleanFacts 5 5) (cleanFacts 6 5) := by
    refine ⟨rfl, ?_, le_rfl, le_rfl, le_rfl, le_rfl, id, le_rfl, le_rfl, le_rfl, le_rfl⟩
    change (Decimal.ofNat 5).toRat ≤ (Decimal.ofNat 6).toRat
    rw [Decimal.toRat_ofNat, Decimal.toRat_ofNat]
    norm_num
  obtain ⟨-, hscore, -, hsevere⟩ := more_danger Scenario.runtime hR _ _ hx h
  exact ⟨hscore, hsevere⟩

end AgentPay.Properties
