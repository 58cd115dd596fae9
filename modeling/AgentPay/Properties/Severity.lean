import AgentPay.Gateway.Scores
import AgentPay.Properties.PolicyDecision

/-!
# The order of the decisions

The three decisions in the order of their severity, and the decision the gateway takes on a policy
input. A result that is undefined is a block. Whether one request is decided at least as severely as
another comes down to two implications between what the packages say about them
(`atLeastAsSevere_iff`).
-/

set_option autoImplicit false

namespace AgentPay.Properties

open AgentPay.Library AgentPay.Library.Rego AgentPay.Policies AgentPay.Gateway

/-- Allowing, sending to a human, blocking. -/
def severity : Decision → ℕ
  | .allow => 0
  | .requireApproval => 1
  | .block => 2

/-- The decision of the gateway when the policy engine answers with the policy's result. -/
def decided (input : PolicyInput) : Decision := (readAnswer input (.body (result input))).decision

/-- The first input is decided at least as severely as the second. -/
def AtLeastAsSevere (first second : PolicyInput) : Prop :=
  severity (decided second) ≤ severity (decided first)

/-- The result of the policy has a value. -/
def HasResult (input : PolicyInput) : Prop :=
  input.context.policyVersion.isSome ∧ input.risk.weightedScore.isSome

/-- Without a result the gateway blocks. -/
theorem decided_of_undefined {input : PolicyInput} (h : ¬ HasResult input) :
    decided input = .block := by
  have hnone : result input = none := by
    by_contra hsome
    obtain ⟨r, hr⟩ := Option.ne_none_iff_exists'.1 hsome
    simp only [result, Option.bind_eq_some_iff, Option.map_eq_some_iff] at hr
    obtain ⟨_, _, _, _, _, hv, _, hs, _⟩ := hr
    exact h ⟨by rw [hv]; rfl, by rw [hs]; rfl⟩
  rw [decided, hnone]
  rfl

/-- With a result the gateway takes the decision of the policy. -/
theorem decided_of_hasResult {input : PolicyInput} (h : HasResult input) :
    decision input = some (decided input).value := by
  obtain ⟨version, hv⟩ := Option.isSome_iff_exists.1 h.1
  obtain ⟨score, hs⟩ := Option.isSome_iff_exists.1 h.2
  obtain ⟨r, hr, hd, -⟩ := result_of_context hv hs
  obtain ⟨d, hvalue⟩ : ∃ d : Decision, r.decision = d.value := by
    rw [decision_eq, Option.some.injEq] at hd
    rw [← hd]
    split_ifs
    · exact ⟨.block, rfl⟩
    · exact ⟨.allow, rfl⟩
    · exact ⟨.requireApproval, rfl⟩
  rw [hd, decided, hr]
  simp only [readAnswer, hvalue, Decision.ofValue?_value]

theorem decided_eq_allow_iff {input : PolicyInput} :
    decided input = .allow ↔ HasResult input ∧ denyReasons input = [] ∧
      (approvalReasons input = [] ∨ Satisfied input) := by
  by_cases h : HasResult input
  · have hd := decided_of_hasResult h
    rw [← decision_eq_allow_iff, hd, Option.some.injEq]
    constructor
    · intro ha
      rw [ha]
      exact ⟨h, rfl⟩
    · rintro ⟨-, ha⟩
      revert ha
      cases decided input <;> decide
  · rw [decided_of_undefined h]
    constructor
    · intro hb
      cases hb
    · intro ha
      exact absurd ha.1 h

theorem decided_eq_block_iff {input : PolicyInput} (h : HasResult input) :
    decided input = .block ↔ denyReasons input ≠ [] := by
  rw [← decision_eq_block_iff, decided_of_hasResult h, Option.some.injEq]
  cases decided input <;> decide

/-- A decision is at least as severe as another when it blocks whatever the other blocks, and allows
nothing that the other does not. -/
theorem severity_le_iff (d d' : Decision) :
    severity d' ≤ severity d ↔ (d' = .block → d = .block) ∧ (d = .allow → d' = .allow) := by
  cases d <;> cases d' <;> decide

/-- On inputs with a result, severity is about denials and about allowances. -/
theorem atLeastAsSevere_iff {first second : PolicyInput} (h₁ : HasResult first)
    (h₂ : HasResult second) : AtLeastAsSevere first second ↔
      (denyReasons first = [] → denyReasons second = []) ∧
      (denyReasons first = [] → approvalReasons first = [] ∨ Satisfied first →
        approvalReasons second = [] ∨ Satisfied second) := by
  rw [AtLeastAsSevere, severity_le_iff, decided_eq_block_iff h₁, decided_eq_block_iff h₂,
    decided_eq_allow_iff, decided_eq_allow_iff, not_imp_not]
  constructor
  · rintro ⟨hb, ha⟩
    exact ⟨hb, fun hd hr => (ha ⟨h₁, hd, hr⟩).2.2⟩
  · rintro ⟨hb, ha⟩
    exact ⟨hb, fun ⟨_, hd, hr⟩ => ⟨h₂, hb hd, ha hd hr⟩⟩

/-- The six packages that deny. -/
theorem denyReasons_eq_nil (input : PolicyInput) :
    denyReasons input = [] ↔ Injection.deny input = [] ∧ Spending.deny input = [] ∧
      Merchant.deny input = [] ∧ AgentScope.deny input = [] ∧ Approvals.deny input = [] ∧
      Duplicates.deny input = [] := by
  simp only [denyReasons, union_eq_nil, List.forall_mem_cons, List.not_mem_nil, false_implies,
    implies_true, and_true]

/-! ## Requests before the risk engine -/

/-- What the risk engine and the policy are run on. -/
structure Facts where
  txn : CanonicalTransaction
  ctx : PolicyContext
  analysis : AnalysisResult
  identity : IdentityFinding
  duplicate : DuplicateFinding
  approval : ApprovalFinding
  allowDegradedClassifier : Bool
  degradedClassifierRequiresReview : Bool

/-- The evidence of the facts, with their risk assessment. -/
def Facts.evidence (R : Runtime) (f : Facts) : Evidence where
  txn := f.txn
  ctx := f.ctx
  analysis := f.analysis
  risk := assess R f.txn f.ctx f.analysis
  identity := f.identity
  duplicate := f.duplicate
  approval := f.approval
  allowDegradedClassifier := f.allowDegradedClassifier
  degradedClassifierRequiresReview := f.degradedClassifierRequiresReview

/-- `risk.assess`, `build_input` and the policy input of the facts. -/
def Facts.input (R : Runtime) (f : Facts) : PolicyInput := buildInput (f.evidence R)

theorem Facts.hasResult (R : Runtime) (f : Facts) : HasResult (f.input R) := ⟨rfl, rfl⟩

end AgentPay.Properties
