import AgentPay.Properties.Danger

/-!
# Merchant trust

Two requests that differ only in the registry's facts about the merchant, one merchant being at most
as trusted as the other. The less trusted one is decided at least as severely, apart from two
combinations in which the rules about a merchant exclude each other (`less_trust_never_helps`): a
claimed verification is contradicted only by an entry of the registry, and an elevated risk is
reviewed only for a verified merchant.
-/

set_option autoImplicit false

namespace AgentPay.Properties

open AgentPay.Library AgentPay.Library.Rego AgentPay.Policies AgentPay.Gateway

/-- The merchant of a context is unknown, known and unverified, or known and verified. -/
def RegistryFacts (ctx : PolicyContext) : Prop :=
  ctx.merchantVerified = true → ctx.merchantKnown = true

/-- The two requests differ only in the registry's facts about the merchant, and the merchant of the
first is at most as trusted as that of the second. -/
structure LessTrusted (less more : Facts) : Prop where
  same : more = { less with
    ctx := { less.ctx with
      merchantKnown := more.ctx.merchantKnown
      merchantVerified := more.ctx.merchantVerified
      merchantRegistryRisk := more.ctx.merchantRegistryRisk } }
  lessRegistry : RegistryFacts less.ctx
  moreRegistry : RegistryFacts more.ctx
  known : less.ctx.merchantKnown = true → more.ctx.merchantKnown = true
  verified : less.ctx.merchantVerified = true → more.ctx.merchantVerified = true
  risk : more.ctx.merchantRegistryRisk ≤ less.ctx.merchantRegistryRisk

/-- Nothing but the trust in the merchant stands against the request. -/
structure OtherwiseAccepted (input : PolicyInput) (f : Facts) : Prop where
  injection : Injection.deny input = []
  spending : Spending.deny input = []
  agent : AgentScope.deny input = []
  approvals : Approvals.deny input = []
  duplicates : Duplicates.deny input = []
  notBlocked : f.txn.merchantId ∉ f.ctx.blockedMerchants
  inAllowList : f.ctx.allowedMerchants ≠ [] → f.txn.merchantId ∈ f.ctx.allowedMerchants

/-- The request claims a verification that the registry contradicts for the more trusted merchant,
and knows nothing about for the less trusted one. -/
structure ClaimContradicted (R : Runtime) (less more : Facts) : Prop where
  notRequired : less.ctx.requireVerifiedMerchant = false
  claimed : less.txn.merchantVerifiedClaim = true
  lessUnknown : less.ctx.merchantKnown = false
  moreKnown : more.ctx.merchantKnown = true
  moreUnverified : more.ctx.merchantVerified = false
  accepted : OtherwiseAccepted (less.input R) less

/-- The more trusted merchant is verified and reviewed for its risk, and the less trusted one is known
and unverified, so that no rule about merchants applies to it. -/
structure UnverifiedUnreviewed (R : Runtime) (less more : Facts) : Prop where
  notRequired : less.ctx.requireVerifiedMerchant = false
  unclaimed : less.txn.merchantVerifiedClaim = false
  lessKnown : less.ctx.merchantKnown = true
  lessUnverified : less.ctx.merchantVerified = false
  moreVerified : more.ctx.merchantVerified = true
  elevated : 6 / 10 ≤ merchantRiskScore more.ctx
  accepted : OtherwiseAccepted (less.input R) less
  unreviewed : ¬ ReviewAsked (less.evidence R)
  unapproved : ¬ Satisfied (less.input R)

/-! ## The scores -/

theorem merchantRiskScore_anti {c c' : PolicyContext} (hknown : c.merchantKnown = true)
    (hknown' : c'.merchantKnown = true)
    (hverified : c.merchantVerified = true → c'.merchantVerified = true)
    (hrisk : c'.merchantRegistryRisk ≤ c.merchantRegistryRisk) :
    merchantRiskScore c' ≤ merchantRiskScore c := by
  simp only [merchantRiskScore, hknown, hknown', Bool.not_true, Bool.false_eq_true, if_false]
  apply clamp_mono
  cases hv : c.merchantVerified with
  | true => simpa [hverified hv] using hrisk
  | false =>
      cases c'.merchantVerified with
      | true =>
          simp only [Bool.not_true, Bool.not_false, Bool.false_eq_true, if_true, if_false]
          exact hrisk.trans (le_max_left _ _)
      | false =>
          simp only [Bool.not_false, if_true]
          exact max_le_max_right _ hrisk

section Trust

variable {R : Runtime} {less more : Facts}

theorem policyViolationScore_of_accepted (h : LessTrusted less more)
    (hreq : less.ctx.requireVerifiedMerchant = false ∨
      less.ctx.merchantVerified = more.ctx.merchantVerified) :
    policyViolationScore more.txn more.ctx = policyViolationScore less.txn less.ctx := by
  rw [h.same]
  rcases hreq with hreq | hreq
  · simp only [policyViolationScore, hreq, Bool.false_and]
  · simp only [policyViolationScore, hreq]

/-- With both merchants known, and the requirement not telling them apart, the weighted score does
not fall with the trust. -/
theorem score_anti (h : LessTrusted less more) (hknown : less.ctx.merchantKnown = true)
    (hreq : less.ctx.requireVerifiedMerchant = false ∨
      less.ctx.merchantVerified = more.ctx.merchantVerified) :
    (more.evidence R).risk.weightedScore ≤ (less.evidence R).risk.weightedScore := by
  refine weightedScore_mono ?_ (policyViolationScore_of_accepted h hreq).le ?_
    (merchantRiskScore_anti hknown (h.known hknown) h.verified h.risk) ?_
  · rw [h.same]
  · rw [h.same]
    rfl
  · rw [h.same]
    rfl

/-! ## The packages -/

theorem deny_less_iff : denyReasons (less.input R) = [] ↔
    OtherwiseAccepted (less.input R) less ∧
    (less.ctx.requireVerifiedMerchant = true → less.ctx.merchantVerified = true) ∧
    (less.txn.merchantVerifiedClaim = true → less.ctx.merchantKnown = true →
      less.ctx.merchantVerified = true) := by
  rw [denyReasons_eq_nil]
  constructor
  · rintro ⟨hi, hs, hm, ha, hp, hd⟩
    obtain ⟨hb, hl, hv, hc⟩ := (merchant_deny_iff _).1 hm
    exact ⟨⟨hi, hs, ha, hp, hd, hb, hl⟩, hv, hc⟩
  · rintro ⟨⟨hi, hs, ha, hp, hd, hb, hl⟩, hv, hc⟩
    exact ⟨hi, hs, (merchant_deny_iff (less.evidence R)).2 ⟨hb, hl, hv, hc⟩, ha, hp, hd⟩

/-- The documents agree outside the context and the risk. -/
theorem input_congr (h : LessTrusted less more) :
    (more.input R).transaction = (less.input R).transaction ∧
      (more.input R).approval = (less.input R).approval ∧
      (more.input R).duplicate = (less.input R).duplicate := by
  rw [h.same]
  exact ⟨rfl, rfl, rfl⟩

/-- What stands against a request apart from the trust in its merchant does not depend on it. -/
theorem otherwiseAccepted_congr (h : LessTrusted less more)
    (ha : OtherwiseAccepted (less.input R) less) : OtherwiseAccepted (more.input R) more := by
  obtain ⟨htxn, happroval, hduplicate⟩ := input_congr (R := R) h
  have hinjection := (injection_deny_iff (less.evidence R)).1 ha.injection
  have hspending := (spending_deny_minor (less.evidence R)).1 ha.spending
  have hagent := (agentScope_deny_iff (less.evidence R)).1 ha.agent
  refine ⟨(injection_deny_iff (more.evidence R)).2 ?_, (spending_deny_minor (more.evidence R)).2 ?_,
    (agentScope_deny_iff (more.evidence R)).2 ?_, ?_, ?_, ?_, ?_⟩
  · rw [h.same]
    exact ⟨hinjection.noInjection, hinjection.classifier⟩
  · rw [h.same]
    exact hspending
  · rw [h.same]
    exact ⟨hagent.identityValid, hagent.identityUser, hagent.registered, hagent.active,
      hagent.scope, hagent.category⟩
  · rw [← ha.approvals]
    unfold Approvals.deny
    rw [htxn, happroval]
  · rw [← ha.duplicates]
    unfold Duplicates.deny
    rw [hduplicate]
  · rw [h.same]
    exact ha.notBlocked
  · rw [h.same]
    exact ha.inAllowList

theorem satisfied_congr (h : LessTrusted less more) :
    Satisfied (more.input R) ↔ Satisfied (less.input R) := by
  obtain ⟨htxn, happroval, -⟩ := input_congr (R := R) h
  unfold Satisfied approvalSatisfied
  rw [htxn, happroval]

/-- The reviews that do not look at the merchant are those of the other request. -/
theorem review_cases (h : LessTrusted less more) (hr : ReviewAsked (more.evidence R)) :
    ReviewAsked (less.evidence R) ∨
    (more.ctx.merchantKnown = false ∧ less.ctx.requireVerifiedMerchant = false) ∨
    (6 / 10 ≤ merchantRiskScore more.ctx ∧ more.ctx.merchantKnown = true ∧
      more.ctx.merchantVerified = true) ∨
    60 ≤ (more.evidence R).risk.weightedScore := by
  have hreq : more.ctx.requireVerifiedMerchant = less.ctx.requireVerifiedMerchant := by rw [h.same]
  rcases hr with hesc | hinj | hthr | hvel | ⟨hk, hv⟩ | helevated | hscore
  · rw [h.same] at hesc
    exact .inl (.inl hesc)
  · rw [h.same] at hinj
    exact .inl (.inr (.inl hinj))
  · rw [h.same] at hthr
    exact .inl (.inr (.inr (.inl hthr)))
  · rw [h.same] at hvel
    exact .inl (.inr (.inr (.inr (.inl hvel))))
  · exact .inr (.inl ⟨hk, hreq ▸ hv⟩)
  · exact .inr (.inr (.inl helevated))
  · exact .inr (.inr (.inr hscore))

/-- The denial of the more trusted merchant. -/
theorem deny_more (h : LessTrusted less more) (hno : ¬ ClaimContradicted R less more)
    (hd : denyReasons (less.input R) = []) : denyReasons (more.input R) = [] := by
  obtain ⟨ha, hv, hc⟩ := deny_less_iff.1 hd
  have hreq : more.ctx.requireVerifiedMerchant = less.ctx.requireVerifiedMerchant := by rw [h.same]
  have hclaim : more.txn.merchantVerifiedClaim = less.txn.merchantVerifiedClaim := by rw [h.same]
  refine deny_less_iff.2 ⟨otherwiseAccepted_congr h ha, ?_, ?_⟩
  · intro hr
    exact h.verified (hv (hreq ▸ hr))
  · intro hcl hk
    rw [hclaim] at hcl
    by_contra hunverified
    rw [Bool.not_eq_true] at hunverified
    have hless : less.ctx.merchantVerified ≠ true := fun hl => by
      rw [h.verified hl] at hunverified
      cases hunverified
    -- only an unknown merchant escapes the denial of an unfounded claim
    refine hno ⟨?_, hcl, ?_, hk, hunverified, ha⟩
    · rw [← Bool.not_eq_true]
      exact fun hr => hless (hv hr)
    · rw [← Bool.not_eq_true]
      exact fun hk => hless (hc hcl hk)

/-- The review of the more trusted merchant. -/
theorem review_more (h : LessTrusted less more) (hno : ¬ UnverifiedUnreviewed R less more)
    (hd : denyReasons (less.input R) = []) (hun : ¬ Satisfied (less.input R))
    (hr : ¬ ReviewAsked (less.evidence R)) : ¬ ReviewAsked (more.evidence R) := by
  obtain ⟨ha, hv, hc⟩ := deny_less_iff.1 hd
  intro hmore
  -- without a review the less trusted merchant is known
  have hknown : less.ctx.merchantKnown = true := by
    cases hk : less.ctx.merchantKnown with
    | true => rfl
    | false =>
        exfalso
        cases hq : less.ctx.requireVerifiedMerchant with
        | true =>
            have hkv := h.lessRegistry (hv hq)
            rw [hk] at hkv
            cases hkv
        | false => exact hr (.inr (.inr (.inr (.inr (.inl ⟨hk, hq⟩)))))
  have hlevel : less.ctx.requireVerifiedMerchant = false ∨
      less.ctx.merchantVerified = more.ctx.merchantVerified := by
    cases hq : less.ctx.requireVerifiedMerchant with
    | true =>
        right
        rw [hv hq, h.verified (hv hq)]
    | false => exact .inl rfl
  rcases review_cases h hmore with hsame | ⟨hk, -⟩ | ⟨helevated, -, hverified⟩ | hscore
  · exact hr hsame
  · rw [h.known hknown] at hk
    cases hk
  · cases hlv : less.ctx.merchantVerified with
    | true =>
        have hrisk := merchantRiskScore_anti hknown (h.known hknown) h.verified h.risk
        exact hr (.inr (.inr (.inr (.inr (.inr (.inl ⟨helevated.trans hrisk, hknown, hlv⟩))))))
    | false =>
        have hunclaimed : less.txn.merchantVerifiedClaim = false := by
          rw [← Bool.not_eq_true]
          intro hcl
          have := hc hcl hknown
          rw [hlv] at this
          cases this
        have hreq : less.ctx.requireVerifiedMerchant = false := by
          rw [← Bool.not_eq_true]
          intro hq
          have := hv hq
          rw [hlv] at this
          cases this
        exact hno ⟨hreq, hunclaimed, hknown, hlv, hverified, helevated, ha, hr, hun⟩
  · exact hr (.inr (.inr (.inr (.inr (.inr (.inr (hscore.trans (score_anti h hknown hlevel))))))))

end Trust

/-! ## The decision -/

/-- **Less merchant trust is decided at least as severely**, unless the registry contradicts a claim
about the more trusted merchant only, or an unverified merchant escapes the review of a verified
one. -/
theorem less_trust_never_helps (R : Runtime) (less more : Facts) (h : LessTrusted less more)
    (hclaim : ¬ ClaimContradicted R less more) (hgap : ¬ UnverifiedUnreviewed R less more) :
    AtLeastAsSevere (less.input R) (more.input R) := by
  rw [atLeastAsSevere_iff (less.hasResult R) (more.hasResult R)]
  refine ⟨deny_more h hclaim, ?_⟩
  intro hd hr
  by_cases hs : Satisfied (less.input R)
  · exact .inr ((satisfied_congr h).2 hs)
  · left
    have hr' := (approvalReasons_minor _).1 (hr.resolve_right hs)
    exact (approvalReasons_minor _).2 (review_more h hgap hd hs hr')

/-- A clean request to a merchant under a policy that may require verified merchants. -/
def merchantFacts (required claimed known verified : Bool) (risk : ℚ) : Facts :=
  { cleanFacts 3 5 with
    txn := { (cleanFacts 3 5).txn with merchantVerifiedClaim := claimed }
    ctx := { (cleanFacts 3 5).ctx with
      requireVerifiedMerchant := required
      merchantKnown := known
      merchantVerified := verified
      merchantRegistryRisk := risk } }

/-- Under a policy that requires verified merchants, an unverified merchant is blocked and a verified
one allowed. -/
theorem less_trust_never_helps_required :
    AtLeastAsSevere ((merchantFacts true true true false (1 / 2)).input Scenario.runtime)
      ((merchantFacts true true true true 0).input Scenario.runtime) := by
  refine less_trust_never_helps Scenario.runtime _ _ ?_ ?_ ?_
  · exact ⟨rfl, fun _ => rfl, fun _ => rfl, fun _ => rfl, fun _ => rfl, by
      change (0 : ℚ) ≤ 1 / 2
      norm_num⟩
  · intro hno
    exact absurd hno.notRequired (by decide)
  · intro hno
    exact absurd hno.notRequired (by decide)

/-- A claimed verification of an unknown merchant is sent to a human, that of a known and unverified
one is blocked. -/
theorem unknown_merchant_milder : ¬ ∀ (R : Runtime) (less more : Facts), LessTrusted less more →
    AtLeastAsSevere (less.input R) (more.input R) := by
  intro h
  have htrust : LessTrusted (merchantFacts false true false false (9 / 10))
      (merchantFacts false true true false (9 / 10)) :=
    ⟨rfl, fun hv => hv, fun _ => rfl, fun _ => rfl, id, le_rfl⟩
  have hsevere := h Scenario.runtime _ _ htrust
  have hless : decided ((merchantFacts false true false false (9 / 10)).input Scenario.runtime) =
      .requireApproval := by decide +kernel
  have hmore : decided ((merchantFacts false true true false (9 / 10)).input Scenario.runtime) =
      .block := by decide +kernel
  rw [AtLeastAsSevere, hless, hmore] at hsevere
  exact absurd hsevere (by decide)

-- A verified merchant of elevated risk is reviewed, an unverified one of the same risk is not.
example : decided ((merchantFacts false false true true (9 / 10)).input Scenario.runtime) =
      .requireApproval ∧
    decided ((merchantFacts false false true false (9 / 10)).input Scenario.runtime) = .allow := by
  decide +kernel

end AgentPay.Properties
