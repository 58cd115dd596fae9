import AgentPay.Policies.Rules

/-!
# The policy decision

The aggregation of the rule packages, the decision with its deny-by-default, the reason codes and
the object the gateway consumes. `decision_eq_block_iff`, `decision_eq_requireApproval_iff` and
`decision_eq_allow_iff` say when each decision is taken, and `result_of_context` that the result is
defined as soon as the policy version and the weighted score are.
-/

set_option autoImplicit false

namespace AgentPay.Policies

open AgentPay.Library.Rego

/-- `data.agentpay.decision.deny_reasons`. -/
def denyReasons (input : PolicyInput) : List String := union [
  Injection.deny input, Spending.deny input, Merchant.deny input, AgentScope.deny input,
  Approvals.deny input, Duplicates.deny input]

/-- `data.agentpay.decision.approval_reasons`. -/
def approvalReasons (input : PolicyInput) : List String := union [
  Injection.requireApproval input, Spending.requireApproval input, Merchant.requireApproval input,
  Approvals.requireApproval input]

/-- `data.agentpay.decision.approval_satisfied`. -/
def approvalSatisfied (input : PolicyInput) : Option Bool := completeRule none [
  ⟨true, [input.approval.present,
    equal input.approval.valid (some true),
    equal input.approval.expired (some false),
    equal input.approval.boundAmount (input.transaction.amount.map some),
    equal input.approval.boundMerchantId (input.transaction.merchantId.map some),
    equal input.approval.boundCurrency (input.transaction.currency.map some),
    equal input.approval.boundCartHash (input.transaction.cartHash.map some)]⟩]

/-- `count(deny_reasons) > 0`. -/
def denied (input : PolicyInput) : Option Bool := less (some 0) (count (some (denyReasons input)))

/-- `count(deny_reasons) == 0`. -/
def notDenied (input : PolicyInput) : Option Bool :=
  equal (count (some (denyReasons input))) (some 0)

/-- `count(approval_reasons) > 0`. -/
def reviewed (input : PolicyInput) : Option Bool :=
  less (some 0) (count (some (approvalReasons input)))

/-- `count(approval_reasons) == 0`. -/
def notReviewed (input : PolicyInput) : Option Bool :=
  equal (count (some (approvalReasons input))) (some 0)

/-- `data.agentpay.decision.decision`, blocked by default. -/
def decision (input : PolicyInput) : Option String := completeRule (some "BLOCK") [
  ⟨"BLOCK", [denied input]⟩,
  ⟨"REQUIRE_APPROVAL", [notDenied input, reviewed input, negate (approvalSatisfied input)]⟩,
  ⟨"ALLOW", [notDenied input, notReviewed input]⟩,
  ⟨"ALLOW", [notDenied input, reviewed input, approvalSatisfied input]⟩]

/-- `sort`. -/
def sort (codes : List String) : List String := codes.insertionSort (· ≤ ·)

/-- `data.agentpay.decision.reason_codes`. -/
def reasonCodes (input : PolicyInput) : Option (List String) := completeRule none [
  ⟨sort (denyReasons input), [denied input]⟩,
  ⟨sort (approvalReasons input), [notDenied input, reviewed input,
    negate (approvalSatisfied input)]⟩,
  ⟨["APPROVAL_SATISFIED"], [notDenied input, reviewed input, approvalSatisfied input]⟩,
  ⟨["POLICY_SATISFIED"], [notDenied input, notReviewed input]⟩]

/-- The object the gateway consumes. -/
structure Result where
  decision : String
  reasonCodes : List String
  denyReasons : List String
  approvalReasons : List String
  policyVersion : String
  weightedScore : ℚ
deriving DecidableEq

/-- `data.agentpay.decision.result`, undefined when one of its entries is. -/
def result (input : PolicyInput) : Option Result :=
  (decision input).bind fun decision =>
  (reasonCodes input).bind fun reasonCodes =>
  input.context.policyVersion.bind fun policyVersion =>
  input.risk.weightedScore.map fun weightedScore =>
    { decision, reasonCodes, denyReasons := sort (denyReasons input)
      approvalReasons := sort (approvalReasons input), policyVersion, weightedScore }

/-! ## When each decision is taken -/

/-- The presented approval satisfies the review requirement. -/
abbrev Satisfied (input : PolicyInput) : Prop := holds (approvalSatisfied input) = true

@[simp] theorem holds_denied (input : PolicyInput) :
    holds (denied input) = decide (denyReasons input ≠ []) := by
  simp [denied, List.length_pos_iff]

@[simp] theorem holds_notDenied (input : PolicyInput) :
    holds (notDenied input) = decide (denyReasons input = []) := by
  simp [notDenied]

@[simp] theorem holds_reviewed (input : PolicyInput) :
    holds (reviewed input) = decide (approvalReasons input ≠ []) := by
  simp [reviewed, List.length_pos_iff]

@[simp] theorem holds_notReviewed (input : PolicyInput) :
    holds (notReviewed input) = decide (approvalReasons input = []) := by
  simp [notReviewed]

/-- The four clauses of the decision exclude each other, so it is a case distinction. -/
theorem decision_eq (input : PolicyInput) :
    decision input = some (
      if denyReasons input ≠ [] then "BLOCK"
      else if approvalReasons input = [] ∨ Satisfied input then "ALLOW"
      else "REQUIRE_APPROVAL") := by
  unfold decision Satisfied
  by_cases hd : denyReasons input = []
  · by_cases hr : approvalReasons input = []
    · rw [completeRule_of_fires (r := ⟨"ALLOW", [notDenied input, notReviewed input]⟩)
        (by simp) (by simp [hd, hr]) (by simp [hd, hr])]
      simp [hd, hr]
    · cases hs : holds (approvalSatisfied input) with
      | true =>
          rw [completeRule_of_fires
            (r := ⟨"ALLOW", [notDenied input, reviewed input, approvalSatisfied input]⟩)
            (by simp) (by simp [hd, hr, hs]) (by simp [hd, hr, hs])]
          simp [hd]
      | false =>
          rw [completeRule_of_fires (r := ⟨"REQUIRE_APPROVAL",
              [notDenied input, reviewed input, negate (approvalSatisfied input)]⟩)
            (by simp) (by simp [hd, hr, hs]) (by simp [hd, hr, hs])]
          simp [hd, hr]
  · rw [completeRule_of_fires (r := ⟨"BLOCK", [denied input]⟩)
      (by simp) (by simp [hd]) (by simp [hd])]
    simp [hd]

/-- The reason codes follow the same case distinction. -/
theorem reasonCodes_eq (input : PolicyInput) :
    reasonCodes input = some (
      if denyReasons input ≠ [] then sort (denyReasons input)
      else if approvalReasons input = [] then ["POLICY_SATISFIED"]
      else if Satisfied input then ["APPROVAL_SATISFIED"]
      else sort (approvalReasons input)) := by
  unfold reasonCodes Satisfied
  by_cases hd : denyReasons input = []
  · by_cases hr : approvalReasons input = []
    · rw [completeRule_of_fires
        (r := ⟨["POLICY_SATISFIED"], [notDenied input, notReviewed input]⟩)
        (by simp) (by simp [hd, hr]) (by simp [hd, hr])]
      simp [hd, hr]
    · cases hs : holds (approvalSatisfied input) with
      | true =>
          rw [completeRule_of_fires (r := ⟨["APPROVAL_SATISFIED"],
              [notDenied input, reviewed input, approvalSatisfied input]⟩)
            (by simp) (by simp [hd, hr, hs]) (by simp [hd, hr, hs])]
          simp [hd, hr]
      | false =>
          rw [completeRule_of_fires (r := ⟨sort (approvalReasons input),
              [notDenied input, reviewed input, negate (approvalSatisfied input)]⟩)
            (by simp) (by simp [hd, hr, hs]) (by simp [hd, hr, hs])]
          simp [hd, hr]
  · rw [completeRule_of_fires (r := ⟨sort (denyReasons input), [denied input]⟩)
      (by simp) (by simp [hd]) (by simp [hd])]
    simp [hd]

theorem decision_eq_block_iff (input : PolicyInput) :
    decision input = some "BLOCK" ↔ denyReasons input ≠ [] := by
  rw [decision_eq]
  split_ifs with h₁ h₂ <;> simp [h₁]

theorem decision_eq_allow_iff (input : PolicyInput) :
    decision input = some "ALLOW" ↔
      denyReasons input = [] ∧ (approvalReasons input = [] ∨ Satisfied input) := by
  rw [decision_eq]
  split_ifs with h₁ h₂
  · simp [h₁]
  · simpa [not_not.1 h₁] using h₂
  · simpa [not_not.1 h₁] using h₂

theorem decision_eq_requireApproval_iff (input : PolicyInput) :
    decision input = some "REQUIRE_APPROVAL" ↔
      denyReasons input = [] ∧ approvalReasons input ≠ [] ∧ ¬ Satisfied input := by
  rw [decision_eq]
  split_ifs with h₁ h₂
  · simp [h₁]
  · simp only [Option.some.injEq, String.reduceEq, false_iff]
    tauto
  · simpa [not_not.1 h₁, not_or] using h₂

/-- An approval is what allows a transaction exactly when nothing denies it, some package asks for a
human, and the presented approval satisfies that. -/
theorem allowed_by_approval_iff (input : PolicyInput) :
    (decision input = some "ALLOW" ∧ reasonCodes input = some ["APPROVAL_SATISFIED"]) ↔
      denyReasons input = [] ∧ approvalReasons input ≠ [] ∧ Satisfied input := by
  rw [decision_eq_allow_iff, reasonCodes_eq]
  by_cases hd : denyReasons input = []
  · by_cases hr : approvalReasons input = []
    · simp [hd, hr]
    · by_cases hs : Satisfied input
      · simp [hd, hr, hs]
      · simp [hd, hr, hs]
  · simp [hd]

/-- The result is defined once the policy version and the weighted score are. -/
theorem result_of_context {input : PolicyInput} {version : String} {score : ℚ}
    (hv : input.context.policyVersion = some version)
    (hs : input.risk.weightedScore = some score) :
    ∃ r, result input = some r ∧ decision input = some r.decision ∧
      reasonCodes input = some r.reasonCodes := by
  obtain ⟨d, hd⟩ : ∃ d, decision input = some d := ⟨_, decision_eq input⟩
  obtain ⟨c, hc⟩ : ∃ c, reasonCodes input = some c := ⟨_, reasonCodes_eq input⟩
  refine ⟨⟨d, c, sort (denyReasons input), sort (approvalReasons input), version, score⟩,
    ?_, hd, hc⟩
  simp only [result, hd, hc, hv, hs, Option.bind_some, Option.map_some]

/-- What a defined result says about the decision and the reason codes. -/
theorem result_eq_some {input : PolicyInput} {r : Result} (h : result input = some r) :
    decision input = some r.decision ∧ reasonCodes input = some r.reasonCodes ∧
      input.context.policyVersion = some r.policyVersion := by
  simp only [result, Option.bind_eq_some_iff, Option.map_eq_some_iff] at h
  obtain ⟨d, hd, c, hc, v, hv, s, -, rfl⟩ := h
  exact ⟨hd, hc, hv⟩

example : decision {} = some "BLOCK" := (decision_eq_block_iff {}).2 (by decide +kernel)

end AgentPay.Policies
