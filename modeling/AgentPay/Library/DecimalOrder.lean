import AgentPay.Library.Decimal

/-!
# Rounding of decimals is monotone

Rounding to the digits of a context and rounding to an integer both keep the order of values. The
sign is not touched by either, so the argument is about magnitudes. The magnitude that stays in a
context is a function of the coefficient alone (`kept`): within one number of digits it is a division
of the coefficient, and a larger number of digits leaves a larger power of ten.
-/

set_option autoImplicit false

namespace AgentPay.Library.Decimal

/-! ## Division of coefficients -/

theorem divHalfEven_mono {m c c' : ℕ} (h : c ≤ c') :
    divHalfEven c m ≤ divHalfEven c' m := by
  have hdiv : c / m ≤ c' / m := Nat.div_le_div_right h
  have hup : ∀ n, divHalfEven n m ≤ n / m + 1 := by
    intro n
    unfold divHalfEven
    split <;> omega
  have hdown : ∀ n, n / m ≤ divHalfEven n m := by
    intro n
    unfold divHalfEven
    split <;> omega
  rcases Nat.lt_or_ge (c / m) (c' / m) with hlt | hge
  · exact (hup c).trans (hlt.trans_le (hdown c'))
  · -- with one quotient, the larger coefficient has the larger remainder
    have hq : c / m = c' / m := le_antisymm hdiv hge
    have hc := Nat.div_add_mod c m
    have hc' := Nat.div_add_mod c' m
    rw [hq] at hc
    unfold divHalfEven
    rw [hq]
    split <;> split <;> omega

theorem divHalfEven_mul_right {c m t : ℕ} (ht : 0 < t) :
    divHalfEven (c * t) (m * t) = divHalfEven c m := by
  have hcond : (m * t < 2 * (c % m * t) ∨ m * t = 2 * (c % m * t) ∧ c / m % 2 = 1) ↔
      (m < 2 * (c % m) ∨ m = 2 * (c % m) ∧ c / m % 2 = 1) := by
    rw [show 2 * (c % m * t) = 2 * (c % m) * t by ring, Nat.mul_lt_mul_right ht,
      Nat.mul_left_inj ht.ne']
  unfold divHalfEven
  rw [Nat.mul_div_mul_right c m ht, Nat.mul_mod_mul_right]
  by_cases h : m < 2 * (c % m) ∨ m = 2 * (c % m) ∧ c / m % 2 = 1
  · rw [if_pos h, if_pos (hcond.2 h)]
  · rw [if_neg h, if_neg fun h' => h (hcond.1 h')]

theorem divHalfUp_eq_floor {c m : ℕ} (hm : 0 < m) :
    (divHalfUp c m : ℤ) = ⌊(c : ℚ) / m + 1 / 2⌋ := by
  have hmq : (0 : ℚ) < m := Nat.cast_pos.2 hm
  have hsplit : (c : ℚ) = m * (c / m : ℕ) + (c % m : ℕ) := by
    exact_mod_cast (Nat.div_add_mod c m).symm
  have hrem : ((c % m : ℕ) : ℚ) < m := by exact_mod_cast Nat.mod_lt c hm
  have hrem0 : (0 : ℚ) ≤ (c % m : ℕ) := Nat.cast_nonneg _
  have hval : (c : ℚ) / m = (c / m : ℕ) + (c % m : ℕ) / m := by
    rw [hsplit]
    field_simp
  symm
  rw [Int.floor_eq_iff, hval]
  unfold divHalfUp
  by_cases h : m ≤ 2 * (c % m)
  · have hq : (m : ℚ) ≤ 2 * (c % m : ℕ) := by exact_mod_cast h
    have hlo : (1 / 2 : ℚ) ≤ (c % m : ℕ) / m := by
      rw [div_le_div_iff₀ (by norm_num) hmq]
      linarith
    have hhi : ((c % m : ℕ) : ℚ) / m < 1 := by rwa [div_lt_one hmq]
    rw [if_pos h, Int.cast_natCast, Nat.cast_add, Nat.cast_one]
    constructor <;> linarith
  · have hq : 2 * ((c % m : ℕ) : ℚ) < m := by exact_mod_cast not_le.1 h
    have hlo : (0 : ℚ) ≤ (c % m : ℕ) / m := by positivity
    have hhi : ((c % m : ℕ) : ℚ) / m < 1 / 2 := by
      rw [div_lt_div_iff₀ hmq (by norm_num)]
      linarith
    rw [if_neg h, Int.cast_natCast]
    constructor <;> linarith

/-! ## The digits a context keeps -/

theorem numDigits_mono {c c' : ℕ} (h : c ≤ c') : numDigits c ≤ numDigits c' := by
  have hpos : 0 < numDigits c' := Nat.length_toDigits_pos
  rw [numDigits_le_iff hpos]
  exact h.trans_lt (lt_pow_numDigits c')

theorem pow_pred_numDigits_le {c : ℕ} (hc : 0 < c) : 10 ^ (numDigits c - 1) ≤ c := by
  have hpos : 0 < numDigits c := Nat.length_toDigits_pos
  rcases Nat.eq_or_lt_of_le (Nat.succ_le_of_lt hpos) with h1 | h1
  · rw [← h1]
    exact hc
  · exact pow_le_of_lt_numDigits (by omega) (by omega)

theorem numDigits_mul_pow {c : ℕ} (hc : 0 < c) (t : ℕ) :
    numDigits (c * 10 ^ t) = numDigits c + t := by
  have hpos : 0 < numDigits c := Nat.length_toDigits_pos
  apply le_antisymm
  · rw [numDigits_le_iff (by omega), pow_add]
    exact Nat.mul_lt_mul_of_pos_right (lt_pow_numDigits c) (by positivity)
  · have hlead : 10 ^ (numDigits c - 1 + t) ≤ c * 10 ^ t := by
      rw [pow_add]
      exact Nat.mul_le_mul_right _ (pow_pred_numDigits_le hc)
    have hlt := hlead.trans_lt (lt_pow_numDigits (c * 10 ^ t))
    have := (Nat.pow_lt_pow_iff_right (by norm_num : 1 < 10)).1 hlt
    omega

/-- The coefficient after rounding to a context, with zeros for the digits that were dropped. -/
def kept (prec c : ℕ) : ℕ :=
  divHalfEven c (10 ^ (numDigits c - prec)) * 10 ^ (numDigits c - prec)

theorem kept_of_le {prec c : ℕ} (h : numDigits c ≤ prec) : kept prec c = c := by
  unfold kept
  rw [Nat.sub_eq_zero_of_le h, pow_zero, mul_one, divHalfEven_of_dvd one_pos (one_dvd c), Nat.div_one]

theorem kept_mul_pow (prec c t : ℕ) : kept prec (c * 10 ^ t) = kept prec c * 10 ^ t := by
  rcases Nat.eq_zero_or_pos c with rfl | hc
  · rw [zero_mul, kept, divHalfEven_of_dvd (by positivity) (dvd_zero _)]
    simp
  · unfold kept
    rw [numDigits_mul_pow hc]
    by_cases hfit : numDigits c ≤ prec
    · -- only zeros are dropped
      have hdvd : 10 ^ (numDigits c + t - prec) ∣ c * 10 ^ t :=
        Dvd.dvd.mul_left (pow_dvd_pow 10 (by omega)) c
      rw [divHalfEven_of_dvd (by positivity) hdvd, Nat.div_mul_cancel hdvd,
        Nat.sub_eq_zero_of_le hfit, pow_zero, mul_one,
        divHalfEven_of_dvd one_pos (one_dvd c), Nat.div_one]
    · rw [show numDigits c + t - prec = numDigits c - prec + t by omega, pow_add,
        divHalfEven_mul_right (by positivity), mul_assoc]

theorem kept_bounds {prec c : ℕ} (hprec : 0 < prec) (hc : 0 < c) :
    10 ^ (numDigits c - 1) ≤ kept prec c ∧ kept prec c ≤ 10 ^ numDigits c := by
  by_cases hfit : numDigits c ≤ prec
  · rw [kept_of_le hfit]
    exact ⟨pow_pred_numDigits_le hc, (lt_pow_numDigits c).le⟩
  · -- both bounds are multiples of what is dropped
    have hdrop : ∀ k, numDigits c - prec ≤ k →
        divHalfEven (10 ^ k) (10 ^ (numDigits c - prec)) * 10 ^ (numDigits c - prec) = 10 ^ k := by
      intro k hk
      have hdvd : 10 ^ (numDigits c - prec) ∣ 10 ^ k := pow_dvd_pow 10 hk
      rw [divHalfEven_of_dvd (by positivity) hdvd, Nat.div_mul_cancel hdvd]
    constructor
    · rw [← hdrop (numDigits c - 1) (by omega)]
      exact Nat.mul_le_mul_right _ (divHalfEven_mono (pow_pred_numDigits_le hc))
    · conv_rhs => rw [← hdrop (numDigits c) (by omega)]
      exact Nat.mul_le_mul_right _ (divHalfEven_mono (lt_pow_numDigits c).le)

theorem kept_mono {prec c c' : ℕ} (hprec : 0 < prec) (h : c ≤ c') : kept prec c ≤ kept prec c' := by
  rcases Nat.eq_zero_or_pos c with rfl | hc
  · rw [kept, divHalfEven_of_dvd (by positivity) (dvd_zero _)]
    simp
  · rcases Nat.eq_or_lt_of_le (numDigits_mono h) with heq | hlt
    · unfold kept
      rw [heq]
      exact Nat.mul_le_mul_right _ (divHalfEven_mono h)
    · calc kept prec c ≤ 10 ^ numDigits c := (kept_bounds hprec hc).2
        _ ≤ 10 ^ (numDigits c' - 1) := Nat.pow_le_pow_right (by norm_num) (by omega)
        _ ≤ kept prec c' := (kept_bounds hprec (hc.trans_le h)).1

/-! ## Magnitudes and values -/

/-- The sign of a decimal as a factor. -/
def sign (d : Decimal) : ℚ := if d.neg then -1 else 1

theorem toRat_eq_sign_mul (d : Decimal) : d.toRat = d.sign * |d.toRat| := by
  rw [abs_toRat, toRat, sign, mul_assoc]

/-- A monotone function of the magnitude, given the sign of the decimal, is monotone in the
value. -/
theorem signed_mono {f : Decimal → ℚ} (hnonneg : ∀ d, 0 ≤ f d)
    (hzero : ∀ d : Decimal, d.toRat = 0 → f d = 0)
    (hmono : ∀ a b : Decimal, |a.toRat| ≤ |b.toRat| → f a ≤ f b) {a b : Decimal}
    (h : a.toRat ≤ b.toRat) : a.sign * f a ≤ b.sign * f b := by
  have ha := toRat_eq_sign_mul a
  have hb := toRat_eq_sign_mul b
  have hna := abs_nonneg a.toRat
  have hnb := abs_nonneg b.toRat
  unfold sign at ha hb ⊢
  cases hsa : a.neg <;> cases hsb : b.neg <;>
    simp only [hsa, hsb, if_true, Bool.false_eq_true, if_false, one_mul, neg_one_mul] at ha hb ⊢
  · exact hmono a b (by linarith)
  · -- a value that is at least zero below one that is at most zero
    rw [hzero a (by linarith), hzero b (by linarith), neg_zero]
  · linarith [hnonneg a, hnonneg b]
  · linarith [hmono b a (by linarith)]

/-- Rounding to a context keeps the sign and the digits of the context. -/
theorem toRat_fix {prec : ℕ} (hprec : 0 < prec) (d : Decimal) :
    (fix prec d).toRat = d.sign * (kept prec d.coeff * pow10 d.exp) := by
  unfold fix
  by_cases hfit : numDigits d.coeff ≤ prec
  · rw [if_pos hfit, kept_of_le hfit, toRat, sign, mul_assoc]
  · rw [if_neg hfit]
    simp only
    have hvalue : ∀ (q : ℕ) (k : ℕ), q * 10 ^ k = kept prec d.coeff →
        toRat ⟨d.neg, q, d.exp + k⟩ = d.sign * (kept prec d.coeff * pow10 d.exp) := by
      intro q k hq
      rw [← hq, toRat, sign, pow10_add, pow10_natCast]
      push_cast
      ring
    split
    · exact hvalue _ _ rfl
    · rename_i hcarry
      have hcarry' : divHalfEven d.coeff (10 ^ (numDigits d.coeff - prec)) = 10 ^ prec := by
        apply le_antisymm
        · -- the quotient of the next power of ten bounds it
          have hle : d.coeff ≤ 10 ^ prec * 10 ^ (numDigits d.coeff - prec) := by
            rw [← pow_add, show prec + (numDigits d.coeff - prec) = numDigits d.coeff by omega]
            exact (lt_pow_numDigits _).le
          refine (divHalfEven_mono hle).trans ?_
          rw [divHalfEven_of_dvd (by positivity) (Dvd.intro_left _ rfl),
            Nat.mul_div_cancel _ (by positivity)]
        · exact pow_le_of_lt_numDigits hprec (not_le.1 hcarry)
      have htenth : 10 ^ prec / 10 * 10 = 10 ^ prec :=
        Nat.div_mul_cancel (dvd_pow_self 10 hprec.ne')
      have hstep := hvalue (10 ^ prec / 10) (numDigits d.coeff - prec + 1) (by
        rw [pow_succ, kept, hcarry', mul_comm (10 ^ (numDigits d.coeff - prec)) 10, ← mul_assoc, htenth])
      rw [hcarry', ← hstep, Nat.cast_add, Nat.cast_one, add_assoc]

/-- A magnitude on a finer exponent. -/
theorem magnitude_rescale (c : ℕ) {e f : ℤ} (h : f ≤ e) :
    (c : ℚ) * pow10 e = (c * 10 ^ (e - f).toNat : ℕ) * pow10 f := by
  have he : e = f + ((e - f).toNat : ℕ) := by omega
  conv_lhs => rw [he, pow10_add, pow10_natCast]
  push_cast
  ring

/-- **Rounding to a context is monotone.** -/
theorem toRat_fix_mono {prec : ℕ} (hprec : 0 < prec) {a b : Decimal} (h : a.toRat ≤ b.toRat) :
    (fix prec a).toRat ≤ (fix prec b).toRat := by
  rw [toRat_fix hprec, toRat_fix hprec]
  refine signed_mono (f := fun d => kept prec d.coeff * pow10 d.exp) ?_ ?_ ?_ h
  · intro d
    exact mul_nonneg (Nat.cast_nonneg _) (pow10_pos _).le
  · intro d hd
    have hc : d.coeff = 0 := by
      have habs := abs_toRat d
      rw [hd, abs_zero, eq_comm, mul_eq_zero, or_iff_left (pow10_pos _).ne'] at habs
      exact_mod_cast habs
    have hk : kept prec 0 = 0 := by
      rw [kept, divHalfEven_of_dvd (by positivity) (dvd_zero _)]
      simp
    simp [hc, hk]
  · intro a b hab
    -- both on the smaller of the two exponents
    obtain ⟨f, hfa, hfb⟩ : ∃ f, f ≤ a.exp ∧ f ≤ b.exp := ⟨min a.exp b.exp, by simp, by simp⟩
    rw [abs_toRat, abs_toRat, magnitude_rescale a.coeff hfa, magnitude_rescale b.coeff hfb] at hab
    have hcoeff : a.coeff * 10 ^ (a.exp - f).toNat ≤ b.coeff * 10 ^ (b.exp - f).toNat := by
      exact_mod_cast le_of_mul_le_mul_right hab (pow10_pos f)
    have hkept := kept_mono hprec hcoeff
    rw [kept_mul_pow, kept_mul_pow] at hkept
    show (kept prec a.coeff : ℚ) * pow10 a.exp ≤ kept prec b.coeff * pow10 b.exp
    rw [magnitude_rescale _ hfa, magnitude_rescale _ hfb]
    exact mul_le_mul_of_nonneg_right (by exact_mod_cast hkept) (pow10_pos f).le

/-- Rounding to an integer rounds the magnitude. -/
theorem toInt_toIntegralHalfUp_eq (d : Decimal) :
    ((toIntegralHalfUp d).toInt : ℚ) = d.sign * ⌊|d.toRat| + 1 / 2⌋ := by
  have hmag : ∃ m : ℕ, (m : ℤ) = ⌊|d.toRat| + 1 / 2⌋ ∧
      (toIntegralHalfUp d).toInt = if d.neg then -(m : ℤ) else m := by
    obtain ⟨neg, c, e⟩ := d
    rw [abs_toRat]
    cases e with
    | ofNat n =>
        refine ⟨c * 10 ^ n, ?_, rfl⟩
        have hval : ((c : ℚ) * pow10 (Int.ofNat n)) = ((c * 10 ^ n : ℕ) : ℤ) := by
          simp [pow10]
        rw [hval]
        symm
        rw [Int.floor_eq_iff]
        constructor <;> linarith
    | negSucc n =>
        refine ⟨divHalfUp c (10 ^ (n + 1)), ?_, ?_⟩
        · rw [divHalfUp_eq_floor (by positivity)]
          simp only [pow10]
          rw [mul_one_div]
        · simp [toIntegralHalfUp, toInt]
  obtain ⟨m, hm, hint⟩ := hmag
  rw [hint, ← hm, sign]
  cases d.neg <;> simp

/-- **Rounding to an integer is monotone.** -/
theorem toInt_toIntegralHalfUp_mono {a b : Decimal} (h : a.toRat ≤ b.toRat) :
    (toIntegralHalfUp a).toInt ≤ (toIntegralHalfUp b).toInt := by
  have hq : ((toIntegralHalfUp a).toInt : ℚ) ≤ (toIntegralHalfUp b).toInt := by
    rw [toInt_toIntegralHalfUp_eq, toInt_toIntegralHalfUp_eq]
    refine signed_mono (f := fun d => (⌊|d.toRat| + 1 / 2⌋ : ℚ)) ?_ ?_ ?_ h
    · intro d
      exact_mod_cast Int.floor_nonneg.2 (by positivity)
    · intro d hd
      simp only [hd]
      norm_num
    · intro a b hab
      exact_mod_cast Int.floor_le_floor (by linarith)
  exact_mod_cast hq

/-- **Conversion of a product in a context to an integer is monotone in the product.** -/
theorem toInt_mul_mono {prec : ℕ} (hprec : 0 < prec) {a b s : Decimal} (hs : 0 ≤ s.toRat)
    (h : a.toRat ≤ b.toRat) :
    (toIntegralHalfUp (mul prec a s)).toInt ≤ (toIntegralHalfUp (mul prec b s)).toInt := by
  apply toInt_toIntegralHalfUp_mono
  apply toRat_fix_mono hprec
  rw [toRat_mulExact, toRat_mulExact]
  exact mul_le_mul_of_nonneg_right h hs

end AgentPay.Library.Decimal
