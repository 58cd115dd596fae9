import AgentPay.Properties.ApprovalOwner

/-!
# What an approval waives

The approval request shows a human why the transaction was parked, but the token granted for it binds
the amount, the merchant, the currency and the cart alone. So the approval waives whatever reasons for
review the later evaluation has, for the transactions that agree on the four and that nothing denies
(`approval_waives_iff`).
-/

set_option autoImplicit false

namespace AgentPay.Properties

open AgentPay.Library AgentPay.Library.Rego AgentPay.Policies AgentPay.Gateway

/-- The policy parks the transaction of the evidence, for given reasons. -/
def ParkedFor (e : Evidence) (reasonCodes : List String) : Prop :=
  ∃ r, result (buildInput e) = some r ∧ r.decision = "REQUIRE_APPROVAL" ∧
    r.reasonCodes = reasonCodes

/-- The reasons for review of the later evaluation are among those that were shown. -/
def WaivesShown (e : Evidence) (reasonCodes : List String) : Prop :=
  ∀ reason ∈ approvalReasons (buildInput e), reason ∈ reasonCodes

/-- Whatever the reasons that were shown and those of the later evaluation, a granted approval allows
exactly the transactions that agree with the parked one on what the approval binds, that nothing
denies and that need review. -/
theorem approval_waives_iff (parked : CanonicalTransaction) (reasonCodes : List String)
    (jti now : ℕ) (e : Evidence)
    (h : findingGranted parked reasonCodes jti now = some e.approval) :
    AllowedByApproval e ↔ SameBinding parked e.txn ∧ denyReasons (buildInput e) = [] ∧
      approvalReasons (buildInput e) ≠ [] := by
  have hreview : approvalReasons (buildInput (withoutApproval e)) =
    approvalReasons (buildInput e) := rfl
  have hdenies := @denyReasons_withoutApproval e
  rw [allowedByApproval_iff h, WouldPark, hreview, hdenies]
  constructor
  · rintro ⟨hbinding, hdeny, hreasons⟩
    exact ⟨hbinding, ⟨hdeny, (approvals_deny_granted h).2 hbinding⟩, hreasons⟩
  · rintro ⟨hbinding, ⟨hdeny, -⟩, hreasons⟩
    exact ⟨hbinding, hdeny, hreasons⟩

/-- A transaction that is parked for its amount. -/
def parkedForAmount : Evidence :=
  let e := cleanEvidence 1 1
  { e with ctx := { e.ctx with approvalThreshold := .ofNat 1 } }

/-- The same transaction under its approval, with content that looks like manipulation. -/
def approvedManipulation : Evidence :=
  { parkedForAmount with
    analysis := { injectionConfidence := 3 / 5 }
    approval := {
      present := true
      valid := true
      boundAmount := some 100
      boundMerchantId := some "m"
      boundCurrency := some "USD"
      boundCartHash := some "" } }

theorem findingGranted_parkedForAmount : findingGranted parkedForAmount.txn
    ["ABOVE_APPROVAL_THRESHOLD"] 7 0 = some approvedManipulation.approval := by
  decide +kernel

theorem approval_waives_manipulation : AllowedByApproval approvedManipulation :=
  (approval_waives_iff parkedForAmount.txn ["ABOVE_APPROVAL_THRESHOLD"] 7 0 approvedManipulation
    findingGranted_parkedForAmount).2 ⟨⟨by decide +kernel, rfl, rfl, rfl⟩, by decide +kernel,
      by decide +kernel⟩

/-- An approval for the amount waives the suspicion of manipulation. -/
theorem waives_unshown : ¬ ∀ (parked e : Evidence) (reasonCodes : List String) (jti now : ℕ),
    ParkedFor parked reasonCodes →
      findingGranted parked.txn reasonCodes jti now = some e.approval → AllowedByApproval e →
        WaivesShown e reasonCodes := by
  intro h
  have hparked : ParkedFor parkedForAmount ["ABOVE_APPROVAL_THRESHOLD"] := by
    have hsome : (result (buildInput parkedForAmount)).isSome = true := by decide +kernel
    obtain ⟨r, hr⟩ := Option.isSome_iff_exists.1 hsome
    have hd : (result (buildInput parkedForAmount)).map Result.decision =
      some "REQUIRE_APPROVAL" := by decide +kernel
    have hc : (result (buildInput parkedForAmount)).map Result.reasonCodes =
      some ["ABOVE_APPROVAL_THRESHOLD"] := by decide +kernel
    rw [hr, Option.map_some, Option.some.injEq] at hd hc
    exact ⟨r, hr, hd, hc⟩
  have hallowed : AllowedByApproval approvedManipulation :=
    (allowedByApproval_iff findingGranted_parkedForAmount).2
      ⟨⟨by decide +kernel, rfl, rfl, rfl⟩, by unfold WouldPark; decide +kernel⟩
  have hshown := h parkedForAmount approvedManipulation _ 7 0 hparked
    findingGranted_parkedForAmount hallowed "PROMPT_INJECTION_SUSPECTED" (by decide +kernel)
  exact absurd hshown (by decide)

end AgentPay.Properties
