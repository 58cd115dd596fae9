import AgentPay.Gateway.Evidence
import AgentPay.Gateway.Money
import AgentPay.Library.DecimalOrder

/-!
# The order of the scores

Rounding keeps the order of scores, so every clamped score is a monotone function of what it is
computed from, lies in the unit interval, and the weighted score lies between 0 and 100. The
conversion to minor units keeps the order of amounts as well.
-/

set_option autoImplicit false

namespace AgentPay.Gateway

open AgentPay.Library

/-! ## Rounding -/

theorem roundHalfEven_bounds (q : ℚ) : ⌊q⌋ ≤ roundHalfEven q ∧ roundHalfEven q ≤ ⌊q⌋ + 1 := by
  unfold roundHalfEven
  simp only
  split_ifs <;> constructor <;> omega

theorem roundHalfEven_mono {q r : ℚ} (h : q ≤ r) : roundHalfEven q ≤ roundHalfEven r := by
  rcases lt_or_eq_of_le (Int.floor_le_floor h) with hlt | heq
  · have hq := (roundHalfEven_bounds q).2
    have hr := (roundHalfEven_bounds r).1
    omega
  · -- with one integer part, the larger number has the larger fraction
    unfold roundHalfEven
    simp only [heq]
    split_ifs <;> first | omega | (exfalso; linarith)

theorem roundHalfEven_intCast (n : ℤ) : roundHalfEven n = n := by
  unfold roundHalfEven
  simp

theorem roundPlaces_mono (places : ℕ) {q r : ℚ} (h : q ≤ r) :
    roundPlaces places q ≤ roundPlaces places r := by
  have hpow : (0 : ℚ) < 10 ^ places := by positivity
  unfold roundPlaces
  apply div_le_div_of_nonneg_right _ hpow.le
  exact_mod_cast roundHalfEven_mono (mul_le_mul_of_nonneg_right h hpow.le)

theorem roundPlaces_natCast (places n : ℕ) : roundPlaces places n = n := by
  have hint : (n : ℚ) * 10 ^ places = ((n * 10 ^ places : ℕ) : ℤ) := by
    push_cast
    rfl
  unfold roundPlaces
  rw [hint, roundHalfEven_intCast]
  push_cast
  field_simp

theorem clamp_mono {x y : ℚ} (h : x ≤ y) : clamp x ≤ clamp y := by
  unfold clamp
  apply roundPlaces_mono
  exact min_le_min_left 1 (max_le_max_left 0 h)

theorem clamp_mem (x : ℚ) : 0 ≤ clamp x ∧ clamp x ≤ 1 := by
  have hzero := roundPlaces_natCast 3 0
  have hone := roundPlaces_natCast 3 1
  rw [Nat.cast_zero] at hzero
  rw [Nat.cast_one] at hone
  unfold clamp
  constructor
  · calc (0 : ℚ) = roundPlaces 3 0 := hzero.symm
      _ ≤ _ := roundPlaces_mono 3 (le_min zero_le_one (le_max_left 0 x))
  · calc roundPlaces 3 (min 1 (max 0 x)) ≤ roundPlaces 3 1 := roundPlaces_mono 3 (min_le_left 1 _)
      _ = 1 := hone

/-- A number that rounding keeps, between two others, stays between them. -/
theorem clamp_of_thousandths {n : ℕ} (h : n ≤ 1000) : clamp (n / 1000) = n / 1000 := by
  have hle : (n : ℚ) / 1000 ≤ 1 := by
    rw [div_le_one (by norm_num)]
    exact_mod_cast h
  have hint : (n : ℚ) / 1000 * 10 ^ 3 = (n : ℤ) := by
    push_cast
    ring
  unfold clamp roundPlaces
  rw [max_eq_right (by positivity), min_eq_right hle, hint, roundHalfEven_intCast]
  push_cast
  norm_num

/-! ## The signals -/

/-- The documented behaviour of `x ** 1.5` on the unit interval that the scores rely on. -/
structure Runtime.PowerMonotone (R : Runtime) : Prop where
  mono : ∀ x y, 0 ≤ x → x ≤ y → y ≤ 1 → R.power15 x ≤ R.power15 y
  unit : ∀ x, 0 ≤ x → x ≤ 1 → 0 ≤ R.power15 x ∧ R.power15 x ≤ 1
  one : R.power15 1 = 1

theorem policyViolationScore_mem (txn : CanonicalTransaction) (ctx : PolicyContext) :
    0 ≤ policyViolationScore txn ctx ∧ policyViolationScore txn ctx ≤ 1 := by
  unfold policyViolationScore
  split
  · norm_num
  · exact clamp_mem _

/-- The amount as a fraction of the limit for one transaction. -/
def perTxnRatio (txn : CanonicalTransaction) (ctx : PolicyContext) : ℚ :=
  txn.amount.toRat / ctx.perTransactionLimit.toRat

/-- The projected spend as a fraction of the daily limit, one when there is no limit. -/
def dailyRatio (txn : CanonicalTransaction) (ctx : PolicyContext) : ℚ :=
  if 0 < ctx.dailyLimit.toRat then
    (ctx.spentToday.toRat + txn.amount.toRat) / ctx.dailyLimit.toRat else 1

theorem budgetAnomalyScore_eq (R : Runtime) (txn : CanonicalTransaction) (ctx : PolicyContext) :
    budgetAnomalyScore R txn ctx =
      if ctx.policyFound = false ∨ ctx.perTransactionLimit.toRat ≤ 0 then 1
      else if 1 < perTxnRatio txn ctx ∨ 1 < dailyRatio txn ctx then 1
      else clamp (R.power15 (max (perTxnRatio txn ctx) (dailyRatio txn ctx))) := by
  simp only [budgetAnomalyScore, perTxnRatio, dailyRatio, Bool.or_eq_true, Bool.not_eq_true',
    decide_eq_true_eq]
  congr 1

theorem budgetAnomalyScore_mem (R : Runtime) (txn : CanonicalTransaction) (ctx : PolicyContext) :
    0 ≤ budgetAnomalyScore R txn ctx ∧ budgetAnomalyScore R txn ctx ≤ 1 := by
  rw [budgetAnomalyScore_eq]
  split
  · norm_num
  · split
    · norm_num
    · exact clamp_mem _

theorem merchantRiskScore_mem (ctx : PolicyContext) :
    0 ≤ merchantRiskScore ctx ∧ merchantRiskScore ctx ≤ 1 := by
  unfold merchantRiskScore
  split
  · norm_num
  · exact clamp_mem _

theorem velocityRiskScore_mem (ctx : PolicyContext) :
    0 ≤ velocityRiskScore ctx ∧ velocityRiskScore ctx ≤ 1 := by
  unfold velocityRiskScore
  split
  · norm_num
  · exact clamp_mem _

/-! ## The weighted score -/

/-- The weighted sum of five signals. -/
def weightedSum (injection violation budget merchant velocity : ℚ) : ℚ :=
  35 * injection + 25 * violation + 20 * budget + 10 * merchant + 10 * velocity

theorem weightedScore_eq (R : Runtime) (txn : CanonicalTransaction) (ctx : PolicyContext)
    (analysis : AnalysisResult) : (assess R txn ctx analysis).weightedScore =
      roundPlaces 2 (weightedSum (clamp analysis.injectionConfidence) (policyViolationScore txn ctx)
        (budgetAnomalyScore R txn ctx) (merchantRiskScore ctx) (velocityRiskScore ctx)) := rfl

/-- The weighted score lies between 0 and 100. -/
theorem weightedScore_mem (R : Runtime) (txn : CanonicalTransaction) (ctx : PolicyContext)
    (analysis : AnalysisResult) : 0 ≤ (assess R txn ctx analysis).weightedScore ∧
      (assess R txn ctx analysis).weightedScore ≤ 100 := by
  obtain ⟨hi, hi'⟩ := clamp_mem analysis.injectionConfidence
  obtain ⟨hp, hp'⟩ := policyViolationScore_mem txn ctx
  obtain ⟨hb, hb'⟩ := budgetAnomalyScore_mem R txn ctx
  obtain ⟨hm, hm'⟩ := merchantRiskScore_mem ctx
  obtain ⟨hv, hv'⟩ := velocityRiskScore_mem ctx
  have hzero := roundPlaces_natCast 2 0
  have hfull := roundPlaces_natCast 2 100
  rw [Nat.cast_zero] at hzero
  rw [weightedScore_eq]
  constructor
  · rw [← hzero]
    apply roundPlaces_mono
    unfold weightedSum
    linarith
  · calc roundPlaces 2 _ ≤ roundPlaces 2 (100 : ℕ) := by
          apply roundPlaces_mono
          unfold weightedSum
          push_cast
          linarith
      _ = 100 := by exact_mod_cast hfull

/-- The weighted score is monotone in the signals. -/
theorem weightedScore_mono {R : Runtime} {txn txn' : CanonicalTransaction}
    {ctx ctx' : PolicyContext} {analysis analysis' : AnalysisResult}
    (hi : analysis.injectionConfidence ≤ analysis'.injectionConfidence)
    (hp : policyViolationScore txn ctx ≤ policyViolationScore txn' ctx')
    (hb : budgetAnomalyScore R txn ctx ≤ budgetAnomalyScore R txn' ctx')
    (hm : merchantRiskScore ctx ≤ merchantRiskScore ctx')
    (hv : velocityRiskScore ctx ≤ velocityRiskScore ctx') :
    (assess R txn ctx analysis).weightedScore ≤ (assess R txn' ctx' analysis').weightedScore := by
  have hi' := clamp_mono hi
  rw [weightedScore_eq, weightedScore_eq]
  apply roundPlaces_mono
  unfold weightedSum
  linarith

/-! ## Minor units -/

/-- The conversion to minor units keeps the order of amounts, also where it rounds. -/
theorem toMinorUnits_mono {a b : Decimal} (h : a.toRat ≤ b.toRat) :
    toMinorUnits a ≤ toMinorUnits b := by
  apply Decimal.toInt_mul_mono (by decide) _ h
  rw [minorUnitScale, Decimal.toRat_ofNat]
  norm_num

end AgentPay.Gateway
