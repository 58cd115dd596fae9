import AgentPay.Gateway.Approvals
import AgentPay.Properties.PolicyDecision

/-!
# Whose approval it is

The approval of a request travels from the parked transaction through the stored request, the claims
of the token and the finding to the policy. Amount, merchant, currency and cart survive every hop
(`binding_of_grant`); the user does not, it ends in the claims. So an approval answers for another
user exactly when that user's transaction agrees on the four and is one the policy would park
(`approval_owner_iff`).
-/

set_option autoImplicit false

namespace AgentPay.Properties

open AgentPay.Library AgentPay.Library.Rego AgentPay.Policies AgentPay.Gateway

/-- The finding of the token granted for the request of a transaction. -/
def findingGranted (parked : CanonicalTransaction) (reasonCodes : List String) (jti now : ℕ) :
    Option ApprovalFinding :=
  (approvalClaims (ApprovalRequest.ofTransaction parked reasonCodes)
    parked.paymentAuthorizationId jti now).bind findingOfClaims

/-- The policy allows the transaction of the evidence because of the presented approval. -/
def AllowedByApproval (e : Evidence) : Prop :=
  ∃ r, result (buildInput e) = some r ∧ r.decision = "ALLOW" ∧
    r.reasonCodes = ["APPROVAL_SATISFIED"]

/-- The transactions agree on what an approval binds. -/
structure SameBinding (t u : CanonicalTransaction) : Prop where
  amount : toMinorUnits t.amount = toMinorUnits u.amount
  merchantId : t.merchantId = u.merchantId
  currency : t.currency = u.currency
  cartHash : t.cartHash = u.cartHash

/-- The evidence without its approval. -/
def withoutApproval (e : Evidence) : Evidence := { e with approval := {} }

/-- No package denies the transaction and some package asks for a human, approvals apart. -/
def WouldPark (e : Evidence) : Prop :=
  denyReasons (buildInput (withoutApproval e)) = [] ∧
    approvalReasons (buildInput (withoutApproval e)) ≠ []

/-- The finding of a granted token is valid and carries what the request displayed. -/
theorem binding_of_grant {parked : CanonicalTransaction} {reasonCodes : List String} {jti now : ℕ}
    {f : ApprovalFinding} (h : findingGranted parked reasonCodes jti now = some f) :
    f = {
      present := true
      valid := true
      expired := false
      boundAmount := some (toMinorUnits parked.amount)
      boundMerchantId := some parked.merchantId
      boundCurrency := some parked.currency
      boundCartHash := some parked.cartHash } := by
  simp only [findingGranted, approvalClaims, ApprovalRequest.ofTransaction, Decimal.parse_str,
    Option.map_some, Option.bind_some, findingOfClaims, toMinorUnitsText_str,
    Option.some.injEq] at h
  exact h.symm

section Grant

variable {parked : CanonicalTransaction} {reasonCodes : List String} {jti now : ℕ} {e : Evidence}

/-- The approval package denies exactly when the bindings disagree. -/
theorem approvals_deny_granted (h : findingGranted parked reasonCodes jti now = some e.approval) :
    Approvals.deny (buildInput e) = [] ↔ SameBinding parked e.txn := by
  simp only [Approvals.deny, partialSet_eq_nil, buildInput, List.forall_mem_cons, fires_mk,
    List.all_cons, List.all_nil, Bool.and_true, holds_equal, holds_unequal, holds_some,
    Option.map_some, List.not_mem_nil, false_implies, implies_true, and_true,
    Bool.and_eq_false_iff, decide_eq_false_iff_not, ne_eq, not_not, binding_of_grant h,
    Bool.true_eq_false, false_or, Bool.false_eq_true, not_false_eq_true, Option.some.injEq]
  constructor
  · rintro ⟨ha, hm, hc, hx⟩
    exact ⟨ha, hm, hc, hx⟩
  · rintro ⟨ha, hm, hc, hx⟩
    exact ⟨ha, hm, hc, hx⟩

/-- The granted approval satisfies a review exactly when the bindings agree. -/
theorem satisfied_granted (h : findingGranted parked reasonCodes jti now = some e.approval) :
    Satisfied (buildInput e) ↔ SameBinding parked e.txn := by
  simp only [Satisfied, approvalSatisfied, holds_completeRule, buildInput, List.all_cons,
    List.all_nil, Bool.and_true, holds_equal, holds_some, Option.map_some, Bool.and_eq_true,
    decide_eq_true_eq, binding_of_grant h, Option.some.injEq, true_and]
  constructor
  · rintro ⟨ha, hm, hc, hx⟩
    exact ⟨ha, hm, hc, hx⟩
  · rintro ⟨ha, hm, hc, hx⟩
    exact ⟨ha, hm, hc, hx⟩

/-- Only the approval package reads the approval. -/
theorem denyReasons_withoutApproval :
    denyReasons (buildInput e) = [] ↔
      denyReasons (buildInput (withoutApproval e)) = [] ∧ Approvals.deny (buildInput e) = [] := by
  have hnone : Approvals.deny (buildInput (withoutApproval e)) = [] := by
    simp [Approvals.deny, partialSet_eq_nil, buildInput, withoutApproval]
  have hinjection : Injection.deny (buildInput (withoutApproval e)) =
    Injection.deny (buildInput e) := rfl
  have hspending : Spending.deny (buildInput (withoutApproval e)) =
    Spending.deny (buildInput e) := rfl
  have hmerchant : Merchant.deny (buildInput (withoutApproval e)) =
    Merchant.deny (buildInput e) := rfl
  have hscope : AgentScope.deny (buildInput (withoutApproval e)) =
    AgentScope.deny (buildInput e) := rfl
  have hduplicates : Duplicates.deny (buildInput (withoutApproval e)) =
    Duplicates.deny (buildInput e) := rfl
  simp only [denyReasons, union_eq_nil, List.forall_mem_cons, List.not_mem_nil, false_implies,
    implies_true, and_true, hnone, hinjection, hspending, hmerchant, hscope, hduplicates, true_and]
  tauto

/-- A granted approval allows exactly the transactions with its binding that would be parked. -/
theorem allowedByApproval_iff
    (h : findingGranted parked reasonCodes jti now = some e.approval) :
    AllowedByApproval e ↔ SameBinding parked e.txn ∧ WouldPark e := by
  have hreview : approvalReasons (buildInput (withoutApproval e)) =
    approvalReasons (buildInput e) := rfl
  have hallow : AllowedByApproval e ↔ decision (buildInput e) = some "ALLOW" ∧
      Policies.reasonCodes (buildInput e) = some ["APPROVAL_SATISFIED"] := by
    obtain ⟨r, hr, hd, hc⟩ := @result_of_context (buildInput e) _ _ rfl rfl
    rw [AllowedByApproval, hr, hd, hc]
    simp only [Option.some.injEq, exists_eq_left']
  rw [hallow, allowed_by_approval_iff, denyReasons_withoutApproval, approvals_deny_granted h,
    satisfied_granted h, WouldPark, hreview]
  exact ⟨fun ⟨⟨hd, hb⟩, hr, _⟩ => ⟨hb, hd, hr⟩, fun ⟨hb, hd, hr⟩ => ⟨⟨hd, hb⟩, hr, hb⟩⟩

end Grant

/-- An approval granted for one user's request allows only that user's transactions, unless another
user's transaction agrees on amount, merchant, currency and cart and would be parked itself. -/
theorem approval_owner_iff (parked : CanonicalTransaction) (reasonCodes : List String)
    (jti now : ℕ) (e : Evidence)
    (h : findingGranted parked reasonCodes jti now = some e.approval) :
    (AllowedByApproval e → parked.userId = e.txn.userId) ↔
      parked.userId = e.txn.userId ∨ ¬ SameBinding parked e.txn ∨ ¬ WouldPark e := by
  rw [allowedByApproval_iff h]
  by_cases huser : parked.userId = e.txn.userId
  · simp [huser]
  · simp only [huser, imp_false, false_or, not_and_or]

/-- A transaction of user `v` that needs review, under an approval of the same order of user `u`. -/
def borrowedApproval : Evidence :=
  let e := cleanEvidence 1 1
  { e with
    txn := { e.txn with userId := "v" }
    ctx := { e.ctx with approvalThreshold := .ofNat 1 }
    identity := ⟨true, "v", []⟩
    approval := {
      present := true
      valid := true
      boundAmount := some 100
      boundMerchantId := some "m"
      boundCurrency := some "USD"
      boundCartHash := some "" } }

theorem findingGranted_clean :
    findingGranted (cleanEvidence 1 1).txn [] 7 0 = some borrowedApproval.approval := by
  decide +kernel

theorem approval_owner_iff_borrowed :
    (AllowedByApproval borrowedApproval → "u" = "v") ↔
      "u" = "v" ∨ ¬ SameBinding (cleanEvidence 1 1).txn borrowedApproval.txn ∨
        ¬ WouldPark borrowedApproval :=
  approval_owner_iff (cleanEvidence 1 1).txn [] 7 0 borrowedApproval findingGranted_clean

/-- The approval of user `u` allows the transaction of user `v`. -/
theorem approval_changes_owner : ¬ ∀ (parked : CanonicalTransaction) (reasonCodes : List String)
    (jti now : ℕ) (e : Evidence), findingGranted parked reasonCodes jti now = some e.approval →
      AllowedByApproval e → parked.userId = e.txn.userId := by
  intro h
  have hpark : WouldPark borrowedApproval := by
    unfold WouldPark
    decide +kernel
  have huser := h (cleanEvidence 1 1).txn [] 7 0 borrowedApproval findingGranted_clean
    ((allowedByApproval_iff findingGranted_clean).2 ⟨⟨by decide +kernel, rfl, rfl, rfl⟩, hpark⟩)
  exact absurd huser (by decide)

end AgentPay.Properties
