import AgentPay.Gateway.Schemas

/-!
# Money as integer minor units

`toMinorUnits` is the single conversion at the boundary to the policy engine. The multiplication by
one hundred happens in the default decimal context of 28 digits, so the conversion is exact for
amounts of at most two decimal places below `10^26`, and not beyond.
-/

set_option autoImplicit false

namespace AgentPay.Gateway

open AgentPay.Library

/-- The precision of the default decimal context. -/
def contextPrecision : ℕ := 28

/-- The scale between major and minor units. -/
def minorUnitScale : Decimal := .ofNat 100

/-- The number of minor units of a major-unit amount. -/
def toMinorUnits (value : Decimal) : ℤ :=
  ((value.mul contextPrecision minorUnitScale).toIntegralHalfUp).toInt

/-- The conversion of an amount that arrives as text, as the claim `bound_amount` does; text that is
not a numeral has no conversion. -/
def toMinorUnitsText (value : String) : Option ℤ := (Decimal.parse value).map toMinorUnits

/-- A monetary value the conversion is exact on: at most two decimal places, and small enough that
its minor units fit the context. -/
structure Convertible (d : Decimal) : Prop where
  twoPlaces : AtMostTwoPlaces d
  magnitude : |d.toRat| < 10 ^ 26

/-- The conversion of a convertible value is its value in hundredths. -/
theorem toMinorUnits_of_convertible {d : Decimal} (h : Convertible d) :
    (toMinorUnits d : ℚ) = d.toRat * 100 := by
  obtain ⟨n, hn⟩ := h.twoPlaces
  have hscale : d.toRat * minorUnitScale.toRat = n := by
    rw [minorUnitScale, Decimal.toRat_ofNat]
    exact_mod_cast hn
  have hlt : n.natAbs < 10 ^ contextPrecision := by
    have hq : (n.natAbs : ℚ) < 10 ^ 28 := by
      have habs : (n.natAbs : ℚ) = |d.toRat| * 100 := by
        rw [Nat.cast_natAbs, Int.cast_abs, ← hn, abs_mul]
        norm_num
      rw [habs]
      linarith [h.magnitude]
    exact_mod_cast hq
  have hconv : toMinorUnits d = n :=
    Decimal.toInt_mul_of_toRat (by decide) d minorUnitScale n hscale hlt
  rw [hconv, hn]

/-- A number of hundredths within the context converts to itself. -/
theorem toMinorUnits_ofHundredths {n : ℤ} (h : n.natAbs < 10 ^ contextPrecision) :
    toMinorUnits (.ofHundredths n) = n := by
  refine Decimal.toInt_mul_of_toRat (by decide) _ _ n ?_ h
  rw [Decimal.toRat_ofHundredths, minorUnitScale, Decimal.toRat_ofNat]
  push_cast
  ring

/-- A number of hundredths beyond the context converts to one beyond the context. -/
theorem toMinorUnits_ofHundredths_large {n : ℕ} (h : 10 ^ contextPrecision ≤ n) :
    10 ^ contextPrecision ≤ toMinorUnits (.ofHundredths n) := by
  have hmul : Decimal.mulExact (.ofHundredths n) minorUnitScale = ⟨false, n * 100, -(2 : ℕ)⟩ := by
    have hneg : decide ((n : ℤ) < 0) = false := decide_eq_false (not_lt.2 (Int.natCast_nonneg n))
    simp [Decimal.mulExact, Decimal.ofHundredths, minorUnitScale, Decimal.ofNat, hneg]
  rw [toMinorUnits, Decimal.mul, hmul]
  refine Decimal.pow_le_toInt_fix (by decide) ?_
  rw [pow_add]
  exact Nat.mul_le_mul h (by norm_num)

/-- The text of a decimal converts as the decimal does: the trip of an amount through its text loses
nothing. -/
theorem toMinorUnitsText_str (d : Decimal) : toMinorUnitsText d.str = some (toMinorUnits d) := by
  rw [toMinorUnitsText, Decimal.parse_str, Option.map_some]

/-- Amounts of the wire schema are convertible. -/
theorem Money.convertible (m : Money) : Convertible m.amount where
  twoPlaces := m.twoPlaces
  magnitude := by
    rw [abs_of_pos m.positive]
    exact m.wholeDigits.trans (by norm_num)

end AgentPay.Gateway
