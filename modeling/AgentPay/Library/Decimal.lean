import Mathlib

/-!
# Decimal arithmetic with a bounded context

A finite decimal is a sign, a coefficient and an exponent, as in the General Decimal Arithmetic
that `decimal.Decimal` implements. Two decimals can have one value and different exponents
(`42.5` and `42.50`), so equality of representations and equality of values (`toRat`) are kept
apart.

Multiplication rounds its exact product to the precision of the context (`mul`), which is exact
when the value is an integer of at most that many digits (`toRat_fix_of_int`). Rounding to an
integer breaks ties away from zero (`toIntegralHalfUp`).

The textual form is the standard one: plain notation while the exponent is not positive and the
adjusted exponent is at least `-6`, scientific notation otherwise. Reading it back gives the same
representation (`parse_str`).
-/

set_option autoImplicit false

namespace AgentPay.Library

/-- A finite decimal `(-1)^neg * coeff * 10^exp`. -/
structure Decimal where
  neg : Bool
  coeff : ℕ
  exp : ℤ
deriving DecidableEq, Repr

namespace Decimal

/-- The power of ten `10^e` as a rational. -/
def pow10 : ℤ → ℚ
  | .ofNat n => (10 ^ n : ℕ)
  | .negSucc n => 1 / (10 ^ (n + 1) : ℕ)

/-- The value of a decimal. -/
def toRat (d : Decimal) : ℚ := (if d.neg then -1 else 1) * (d.coeff : ℚ) * pow10 d.exp

/-- The decimal of an integer number of hundredths. -/
def ofHundredths (n : ℤ) : Decimal := ⟨decide (n < 0), n.natAbs, -2⟩

/-- The decimal of a natural number. -/
def ofNat (n : ℕ) : Decimal := ⟨false, n, 0⟩

/-- The number of digits of a coefficient; zero has one digit. -/
def numDigits (n : ℕ) : ℕ := (Nat.toDigits 10 n).length

/-- Division with ties to the even quotient. -/
def divHalfEven (c m : ℕ) : ℕ :=
  if m < 2 * (c % m) ∨ (m = 2 * (c % m) ∧ c / m % 2 = 1) then c / m + 1 else c / m

/-- Division with ties away from zero. -/
def divHalfUp (c m : ℕ) : ℕ := if m ≤ 2 * (c % m) then c / m + 1 else c / m

/-- Rounding to `prec` significant digits. A carry into a new digit drops the trailing zero. -/
def fix (prec : ℕ) (d : Decimal) : Decimal :=
  if numDigits d.coeff ≤ prec then d
  else
    let drop := numDigits d.coeff - prec
    let q := divHalfEven d.coeff (10 ^ drop)
    if numDigits q ≤ prec then ⟨d.neg, q, d.exp + drop⟩
    else ⟨d.neg, q / 10, d.exp + drop + 1⟩

/-- The exact product. -/
def mulExact (a b : Decimal) : Decimal := ⟨a.neg != b.neg, a.coeff * b.coeff, a.exp + b.exp⟩

/-- The product in a context of `prec` digits. -/
def mul (prec : ℕ) (a b : Decimal) : Decimal := fix prec (mulExact a b)

/-- Rounding to an integer, ties away from zero; a decimal without fractional digits is kept. -/
def toIntegralHalfUp (d : Decimal) : Decimal :=
  match d.exp with
  | .ofNat _ => d
  | .negSucc n => ⟨d.neg, divHalfUp d.coeff (10 ^ (n + 1)), 0⟩

/-- Conversion to an integer, truncating toward zero. -/
def toInt (d : Decimal) : ℤ :=
  let magnitude : ℕ := match d.exp with
    | .ofNat n => d.coeff * 10 ^ n
    | .negSucc n => d.coeff / 10 ^ (n + 1)
  if d.neg then -magnitude else magnitude

/-! ## Powers of ten and values -/

theorem pow10_pos (e : ℤ) : 0 < pow10 e := by
  cases e with
  | ofNat n => simp [pow10]
  | negSucc n => simp only [pow10]; positivity

theorem pow10_eq_zpow (e : ℤ) : pow10 e = (10 : ℚ) ^ e := by
  cases e with
  | ofNat n => simp [pow10]
  | negSucc n => simp [pow10, zpow_negSucc]

theorem pow10_add (e f : ℤ) : pow10 (e + f) = pow10 e * pow10 f := by
  simp only [pow10_eq_zpow]
  exact zpow_add₀ (by norm_num) e f

theorem pow10_natCast (n : ℕ) : pow10 (n : ℤ) = 10 ^ n := by
  rw [pow10_eq_zpow, zpow_natCast]

theorem toRat_mulExact (a b : Decimal) : (mulExact a b).toRat = a.toRat * b.toRat := by
  rcases a with ⟨an, ac, ae⟩
  rcases b with ⟨bn, bc, be⟩
  simp only [mulExact, toRat, pow10_add, Nat.cast_mul]
  cases an <;> cases bn <;> simp <;> ring

theorem toRat_ofHundredths (n : ℤ) : (ofHundredths n).toRat = n / 100 := by
  have hp : pow10 (-2) = 1 / 100 := by norm_num [pow10_eq_zpow]
  simp only [ofHundredths, toRat, hp]
  by_cases hn : n < 0
  · have habs : ((n.natAbs : ℕ) : ℚ) = -n := by
      have h : ((n.natAbs : ℕ) : ℤ) = -n := by omega
      rw [← Int.cast_natCast, h, Int.cast_neg]
    simp only [hn, decide_true, if_true, habs]
    ring
  · have habs : ((n.natAbs : ℕ) : ℚ) = n := by
      have h : ((n.natAbs : ℕ) : ℤ) = n := by omega
      rw [← Int.cast_natCast, h]
    simp only [hn, decide_false, Bool.false_eq_true, if_false, habs]
    ring

theorem toRat_ofNat (n : ℕ) : (ofNat n).toRat = n := by
  simp [ofNat, toRat, pow10]

/-- The magnitude of a value, without its sign. -/
theorem abs_toRat (d : Decimal) : |d.toRat| = (d.coeff : ℚ) * pow10 d.exp := by
  have h : 0 ≤ (d.coeff : ℚ) * pow10 d.exp := mul_nonneg (Nat.cast_nonneg _) (pow10_pos _).le
  unfold toRat
  cases d.neg
  · rw [if_neg Bool.false_ne_true, one_mul, abs_of_nonneg h]
  · rw [if_pos rfl, neg_one_mul, neg_mul, abs_neg, abs_of_nonneg h]

/-! ## Rounding to the context -/

theorem numDigits_le_iff {n k : ℕ} (hk : 0 < k) : numDigits n ≤ k ↔ n < 10 ^ k :=
  Nat.length_toDigits_le_iff (by norm_num) hk

theorem pow_le_of_lt_numDigits {n k : ℕ} (hk : 0 < k) (h : k < numDigits n) : 10 ^ k ≤ n := by
  by_contra hlt
  have := (numDigits_le_iff hk).2 (not_le.1 hlt)
  omega

theorem lt_pow_numDigits (n : ℕ) : n < 10 ^ numDigits n :=
  (numDigits_le_iff Nat.length_toDigits_pos).1 le_rfl

theorem divHalfEven_of_dvd {c m : ℕ} (hm : 0 < m) (h : m ∣ c) : divHalfEven c m = c / m := by
  have hr : c % m = 0 := Nat.mod_eq_zero_of_dvd h
  simp only [divHalfEven, hr, mul_zero]
  rw [if_neg (by omega)]

theorem divHalfUp_of_dvd {c m : ℕ} (hm : 0 < m) (h : m ∣ c) : divHalfUp c m = c / m := by
  have hr : c % m = 0 := Nat.mod_eq_zero_of_dvd h
  simp only [divHalfUp, hr, mul_zero]
  rw [if_neg (by omega)]

/-- A coefficient with fractional digits whose value is an integer is divisible by its scale. -/
theorem coeff_eq_of_int {c n m : ℕ} (h : (c : ℚ) * pow10 (Int.negSucc n) = m) :
    c = m * 10 ^ (n + 1) := by
  have hpos : (0 : ℚ) < ((10 ^ (n + 1) : ℕ) : ℚ) := by positivity
  have hq : (c : ℚ) = (m : ℚ) * ((10 ^ (n + 1) : ℕ) : ℚ) := by
    rw [← h]
    simp only [pow10]
    field_simp
  exact_mod_cast hq

/-- Rounding to the context keeps an integer value of at most `prec` digits. -/
theorem toRat_fix_of_int {prec : ℕ} (hprec : 0 < prec) (d : Decimal) (m : ℕ)
    (hm : (d.coeff : ℚ) * pow10 d.exp = m) (hlt : m < 10 ^ prec) :
    (fix prec d).toRat = d.toRat := by
  unfold fix
  by_cases hfit : numDigits d.coeff ≤ prec
  · rw [if_pos hfit]
  · rw [if_neg hfit]
    have hbig : 10 ^ prec ≤ d.coeff := pow_le_of_lt_numDigits hprec (by omega)
    obtain ⟨neg, c, e⟩ := d
    simp only at hm hfit hbig ⊢
    cases e with
    | ofNat n =>
        -- a non-negative exponent would make the value at least the coefficient
        have hle : c ≤ m := by
          have hq : (c : ℚ) ≤ m := by
            rw [← hm]
            have h1 : (1 : ℚ) ≤ pow10 (Int.ofNat n) := by
              simp only [pow10]
              exact_mod_cast Nat.one_le_pow n 10 (by norm_num)
            nlinarith [Nat.cast_nonneg (α := ℚ) c]
          exact_mod_cast hq
        omega
    | negSucc n =>
        have hc : c = m * 10 ^ (n + 1) := coeff_eq_of_int hm
        have hdig : numDigits c ≤ prec + (n + 1) := by
          rw [numDigits_le_iff (by omega), hc, pow_add 10 prec]
          exact Nat.mul_lt_mul_of_pos_right hlt (by positivity)
        have hdvd : 10 ^ (numDigits c - prec) ∣ c := by
          rw [hc]
          exact Dvd.dvd.mul_left (pow_dvd_pow 10 (by rw [← hc]; omega)) m
        have hpow : 0 < 10 ^ (numDigits c - prec) := by positivity
        rw [divHalfEven_of_dvd hpow hdvd]
        have hq : c / 10 ^ (numDigits c - prec) < 10 ^ prec := by
          rw [Nat.div_lt_iff_lt_mul hpow, ← pow_add]
          have := lt_pow_numDigits c
          rwa [show prec + (numDigits c - prec) = numDigits c by omega]
        rw [if_pos ((numDigits_le_iff hprec).2 hq)]
        have hback : ((c / 10 ^ (numDigits c - prec) : ℕ) : ℚ) * 10 ^ (numDigits c - prec) = c := by
          exact_mod_cast Nat.div_mul_cancel hdvd
        simp only [toRat, pow10_add, pow10_natCast]
        linear_combination ((if neg then -1 else 1 : ℚ) * pow10 (Int.negSucc n)) * hback

/-- Converting a decimal whose value is an integer gives that integer. -/
theorem toInt_toIntegralHalfUp (d : Decimal) (m : ℕ) (hm : (d.coeff : ℚ) * pow10 d.exp = m) :
    (toIntegralHalfUp d).toInt = if d.neg then -(m : ℤ) else m := by
  obtain ⟨neg, c, e⟩ := d
  simp only at hm ⊢
  cases e with
  | ofNat n =>
      have hc : c * 10 ^ n = m := by
        simp only [pow10] at hm
        exact_mod_cast hm
      simp only [toIntegralHalfUp, toInt, hc]
  | negSucc n =>
      have hc : c = m * 10 ^ (n + 1) := coeff_eq_of_int hm
      have hdvd : 10 ^ (n + 1) ∣ c := by rw [hc]; exact Dvd.intro_left m rfl
      have hq : divHalfUp c (10 ^ (n + 1)) = m := by
        rw [divHalfUp_of_dvd (by positivity) hdvd, hc]
        exact Nat.mul_div_cancel m (by positivity)
      simp [toIntegralHalfUp, toInt, hq]

/-- Converting a decimal whose value is an integer gives that integer, with its sign. -/
theorem toInt_of_toRat (d : Decimal) (n : ℤ) (h : d.toRat = n) : (toIntegralHalfUp d).toInt = n := by
  have hm : (d.coeff : ℚ) * pow10 d.exp = (n.natAbs : ℕ) := by
    rw [← abs_toRat, h, ← Int.cast_abs, Int.abs_eq_natAbs, Int.cast_natCast]
  rw [toInt_toIntegralHalfUp d _ hm]
  have hq : (if d.neg then -1 else 1 : ℚ) * (n.natAbs : ℕ) = n := by
    rw [← h, toRat, mul_assoc, hm]
  generalize n.natAbs = m at hq ⊢
  cases hneg : d.neg with
  | true =>
      rw [hneg, if_pos rfl, neg_one_mul] at hq
      rw [if_pos rfl]
      exact_mod_cast hq
  | false =>
      rw [hneg, if_neg Bool.false_ne_true, one_mul] at hq
      rw [if_neg Bool.false_ne_true]
      exact_mod_cast hq

/-- A product whose value is an integer of at most `prec` digits converts exactly. -/
theorem toInt_mul_of_toRat {prec : ℕ} (hprec : 0 < prec) (a b : Decimal) (n : ℤ)
    (h : a.toRat * b.toRat = n) (hlt : n.natAbs < 10 ^ prec) :
    (toIntegralHalfUp (mul prec a b)).toInt = n := by
  have hval : (mulExact a b).toRat = n := by rw [toRat_mulExact, h]
  have hm : ((mulExact a b).coeff : ℚ) * pow10 (mulExact a b).exp = (n.natAbs : ℕ) := by
    rw [← abs_toRat, hval, ← Int.cast_abs, Int.abs_eq_natAbs, Int.cast_natCast]
  refine toInt_of_toRat _ n ?_
  rw [mul, toRat_fix_of_int hprec _ _ hm hlt, hval]

/-- A value of more than `prec` digits stays one when it is rounded to the context. -/
theorem pow_le_toInt_fix {prec c e : ℕ} (hprec : 0 < prec) (h : 10 ^ (prec + e) ≤ c) :
    10 ^ prec ≤ (toIntegralHalfUp (fix prec ⟨false, c, -e⟩)).toInt := by
  have hdigits : prec + e < numDigits c := by
    by_contra hle
    have hlt := (numDigits_le_iff (by omega)).1 (not_lt.1 hle)
    omega
  obtain ⟨k, hk⟩ : ∃ k, numDigits c = prec + (e + k + 1) := ⟨numDigits c - prec - e - 1, by omega⟩
  have hlead : 10 ^ (prec - 1) * 10 ^ (e + k + 1) ≤ c := by
    rw [← pow_add]
    apply pow_le_of_lt_numDigits <;> omega
  have hq : 10 ^ (prec - 1) ≤ divHalfEven c (10 ^ (e + k + 1)) := by
    have hdiv : 10 ^ (prec - 1) ≤ c / 10 ^ (e + k + 1) :=
      (Nat.le_div_iff_mul_le (by positivity)).2 hlead
    unfold divHalfEven
    split
    · omega
    · exact hdiv
  have hpow : 10 ^ prec = 10 ^ (prec - 1) * 10 := by
    rw [← pow_succ, Nat.sub_add_cancel hprec]
  have hexp : ∀ i : ℕ, (-(e : ℤ) + ((e + k + 1 : ℕ) : ℤ) + i) = Int.ofNat (k + 1 + i) := by
    intro i
    push_cast
    simp only [Int.ofNat_eq_natCast]
    push_cast
    ring
  unfold fix
  rw [if_neg (by simp only; omega)]
  simp only [hk, Nat.add_sub_cancel_left]
  -- the exponent is positive after rounding, so the conversion only appends zeros
  split
  · have h0 := hexp 0
    simp only [Nat.cast_zero, add_zero] at h0
    simp only [toIntegralHalfUp, toInt, h0, Bool.false_eq_true, if_false]
    have hle : 10 ^ prec ≤ divHalfEven c (10 ^ (e + k + 1)) * 10 ^ (k + 1) := by
      rw [hpow]
      exact Nat.mul_le_mul hq (by rw [pow_succ]; exact Nat.le_mul_of_pos_left 10 (by positivity))
    exact_mod_cast hle
  · rename_i hcarry
    have hbig : 10 ^ prec ≤ divHalfEven c (10 ^ (e + k + 1)) :=
      pow_le_of_lt_numDigits hprec (by omega)
    have h1 := hexp 1
    simp only [Nat.cast_one] at h1
    simp only [toIntegralHalfUp, toInt, h1, Bool.false_eq_true, if_false]
    have htenth : 10 ^ (prec - 1) ≤ divHalfEven c (10 ^ (e + k + 1)) / 10 :=
      (Nat.le_div_iff_mul_le (by norm_num)).2 (hpow ▸ hbig)
    have hle : 10 ^ prec ≤ divHalfEven c (10 ^ (e + k + 1)) / 10 * 10 ^ (k + 1 + 1) := by
      rw [hpow]
      exact Nat.mul_le_mul htenth (by rw [pow_succ]; exact Nat.le_mul_of_pos_left 10 (by positivity))
    exact_mod_cast hle

/-! ## Textual form -/

/-- The lexical parts of a numeral: sign, integer digits, fractional digits after a point, and an
exponent with its sign. -/
structure Numeral where
  neg : Bool
  int : List Char
  frac : Option (List Char)
  exp : Option (Bool × List Char)

/-- The characters of a numeral. -/
def Numeral.render (t : Numeral) : List Char :=
  (if t.neg then ['-'] else []) ++ t.int ++
    (match t.frac with | none => [] | some f => '.' :: f) ++
    (match t.exp with | none => [] | some (s, ds) => 'E' :: (if s then '-' else '+') :: ds)

/-- The numeral of a decimal: plain notation when the exponent is at most zero and more than `-6`
digits stand left of the point, else one digit left of the point and an exponent. -/
def toNumeral (d : Decimal) : Numeral :=
  let ds := Nat.toDigits 10 d.coeff
  let left : ℤ := d.exp + ds.length
  let dot : ℤ := if d.exp ≤ 0 ∧ -6 < left then left else 1
  let exp := if left = dot then none
    else some (decide (left - dot < 0), Nat.toDigits 10 (left - dot).natAbs)
  if dot ≤ 0 then ⟨d.neg, ['0'], some (List.replicate (-dot).toNat '0' ++ ds), exp⟩
  else if (ds.length : ℤ) ≤ dot then
    ⟨d.neg, ds ++ List.replicate (dot - ds.length).toNat '0', none, exp⟩
  else ⟨d.neg, ds.take dot.toNat, some (ds.drop dot.toNat), exp⟩

/-- The string of a decimal. -/
def str (d : Decimal) : String := String.ofList (toNumeral d).render

/-- An optional sign. -/
def lexSign : List Char → Bool × List Char
  | '-' :: cs => (true, cs)
  | '+' :: cs => (false, cs)
  | cs => (false, cs)

/-- An optional point with the digits after it. -/
def lexFrac : List Char → Option (List Char) × List Char
  | '.' :: cs => (some (cs.takeWhile Char.isDigit), cs.dropWhile Char.isDigit)
  | cs => (none, cs)

/-- An optional exponent, which must end the numeral. -/
def lexExp : List Char → Option (Option (Bool × List Char))
  | [] => some none
  | c :: cs =>
    if c = 'E' ∨ c = 'e' then
      let (s, ds) := lexSign cs
      if ds ≠ [] ∧ ds.all Char.isDigit then some (some (s, ds)) else none
    else none

/-- The lexical parts of a finite numeral over ASCII digits; at least one digit must stand before
the exponent. -/
def lex (cs : List Char) : Option Numeral :=
  let (neg, cs) := lexSign cs
  let int := cs.takeWhile Char.isDigit
  let (frac, cs) := lexFrac (cs.dropWhile Char.isDigit)
  if int = [] ∧ frac.getD [] = [] then none
  else (lexExp cs).map fun exp => ⟨neg, int, frac, exp⟩

/-- The decimal of a numeral: every digit counts in the coefficient, and the fractional digits
lower the exponent. -/
def ofNumeral (t : Numeral) : Decimal :=
  let digits := t.int ++ t.frac.getD []
  let exp : ℤ := match t.exp with
    | none => 0
    | some (s, ds) => if s then -(Nat.ofDigitChars 10 ds 0 : ℤ) else Nat.ofDigitChars 10 ds 0
  ⟨t.neg, Nat.ofDigitChars 10 digits 0, exp - (t.frac.getD []).length⟩

/-- Reading a finite decimal numeral. -/
def parse (s : String) : Option Decimal := (lex s.toList).map ofNumeral

/-! ## Reading back the text -/

theorem isDigit_of_mem_toDigits {n : ℕ} {c : Char} (h : c ∈ Nat.toDigits 10 n) :
    c.isDigit = true :=
  Nat.isDigit_of_mem_toDigits (by norm_num) (by norm_num) h

theorem isDigit_zero : Char.isDigit '0' = true := by decide

theorem takeWhile_isDigit_of_all {ds rest : List Char} (h : ∀ c ∈ ds, c.isDigit = true)
    (hr : rest.takeWhile Char.isDigit = []) : (ds ++ rest).takeWhile Char.isDigit = ds := by
  rw [List.takeWhile_append_of_pos h, hr, List.append_nil]

theorem dropWhile_isDigit_of_all {ds rest : List Char} (h : ∀ c ∈ ds, c.isDigit = true)
    (hr : rest.dropWhile Char.isDigit = rest) : (ds ++ rest).dropWhile Char.isDigit = rest := by
  rw [List.dropWhile_append_of_pos h, hr]

/-- A numeral as `toNumeral` builds it: only digits, at least one before the point, and digits in
the exponent. -/
structure Numeral.WellFormed (t : Numeral) : Prop where
  int_ne : t.int ≠ []
  int_digits : ∀ c ∈ t.int, c.isDigit = true
  frac_digits : ∀ f, t.frac = some f → ∀ c ∈ f, c.isDigit = true
  exp_ne : ∀ s ds, t.exp = some (s, ds) → ds ≠ []
  exp_digits : ∀ s ds, t.exp = some (s, ds) → ∀ c ∈ ds, c.isDigit = true

/-- The exponent part of a rendered numeral. -/
def renderExp : Option (Bool × List Char) → List Char
  | none => []
  | some (s, ds) => 'E' :: (if s then '-' else '+') :: ds

/-- The fractional part of a rendered numeral. -/
def renderFrac : Option (List Char) → List Char
  | none => []
  | some f => '.' :: f

theorem Numeral.render_eq (t : Numeral) :
    t.render = (if t.neg then ['-'] else []) ++ (t.int ++ (renderFrac t.frac ++ renderExp t.exp)) := by
  simp only [Numeral.render, List.append_assoc]
  rfl

theorem renderExp_no_digit (e : Option (Bool × List Char)) :
    (renderExp e).takeWhile Char.isDigit = [] ∧
      (renderExp e).dropWhile Char.isDigit = renderExp e := by
  cases e with
  | none => exact ⟨rfl, rfl⟩
  | some p => exact ⟨rfl, rfl⟩

theorem renderTail_no_digit (f : Option (List Char)) (e : Option (Bool × List Char)) :
    (renderFrac f ++ renderExp e).takeWhile Char.isDigit = [] ∧
      (renderFrac f ++ renderExp e).dropWhile Char.isDigit = renderFrac f ++ renderExp e := by
  cases f with
  | none => exact renderExp_no_digit e
  | some f => exact ⟨rfl, rfl⟩

theorem lexSign_digits {ds : List Char} (hne : ds ≠ []) (h : ∀ c ∈ ds, c.isDigit = true)
    (rest : List Char) : lexSign (ds ++ rest) = (false, ds ++ rest) := by
  cases ds with
  | nil => exact absurd rfl hne
  | cons c cs =>
      have hc : c.isDigit = true := h c List.mem_cons_self
      have h1 : c ≠ '-' := by rintro rfl; exact absurd hc (by decide)
      have h2 : c ≠ '+' := by rintro rfl; exact absurd hc (by decide)
      unfold lexSign
      split
      · next heq => exact absurd (List.cons.inj heq).1 h1
      · next heq => exact absurd (List.cons.inj heq).1 h2
      · rfl

theorem lexFrac_render (f : Option (List Char)) (e : Option (Bool × List Char))
    (h : ∀ g, f = some g → ∀ c ∈ g, c.isDigit = true) :
    lexFrac (renderFrac f ++ renderExp e) = (f, renderExp e) := by
  obtain ⟨ht, hd⟩ := renderExp_no_digit e
  cases f with
  | none =>
      cases e with
      | none => rfl
      | some p => rfl
  | some g =>
      have hg := h g rfl
      show (some ((g ++ renderExp e).takeWhile Char.isDigit), (g ++ renderExp e).dropWhile Char.isDigit)
        = (some g, renderExp e)
      rw [takeWhile_isDigit_of_all hg ht, dropWhile_isDigit_of_all hg hd]

theorem lexExp_render (e : Option (Bool × List Char))
    (hne : ∀ s ds, e = some (s, ds) → ds ≠ [])
    (h : ∀ s ds, e = some (s, ds) → ∀ c ∈ ds, c.isDigit = true) :
    lexExp (renderExp e) = some e := by
  cases e with
  | none => rfl
  | some p =>
      obtain ⟨s, ds⟩ := p
      have hds : ds ≠ [] ∧ ds.all Char.isDigit = true :=
        ⟨hne s ds rfl, List.all_eq_true.2 (h s ds rfl)⟩
      cases s
      · show (if ds ≠ [] ∧ ds.all Char.isDigit = true then some (some (false, ds)) else none) = _
        rw [if_pos hds]
      · show (if ds ≠ [] ∧ ds.all Char.isDigit = true then some (some (true, ds)) else none) = _
        rw [if_pos hds]

/-- Lexing inverts rendering on well-formed numerals. -/
theorem lex_render {t : Numeral} (ht : t.WellFormed) : lex t.render = some t := by
  have hsign : lexSign t.render = (t.neg, t.int ++ (renderFrac t.frac ++ renderExp t.exp)) := by
    rw [Numeral.render_eq]
    cases hn : t.neg
    · simpa using lexSign_digits ht.int_ne ht.int_digits _
    · rfl
  obtain ⟨hnt, hnd⟩ := renderTail_no_digit t.frac t.exp
  unfold lex
  simp only [hsign, takeWhile_isDigit_of_all ht.int_digits hnt,
    dropWhile_isDigit_of_all ht.int_digits hnd, lexFrac_render t.frac t.exp ht.frac_digits,
    lexExp_render t.exp ht.exp_ne ht.exp_digits, Option.map_some]
  rw [if_neg fun h => ht.int_ne h.1]

theorem toNumeral_wellFormed (d : Decimal) : (toNumeral d).WellFormed := by
  have hds : ∀ c ∈ Nat.toDigits 10 d.coeff, c.isDigit = true := fun c => isDigit_of_mem_toDigits
  have hzero : ∀ n, ∀ c ∈ List.replicate n '0', c.isDigit = true := by
    intro n c hc
    rw [List.eq_of_mem_replicate hc]
    exact isDigit_zero
  have hexp : ∀ (p : Prop) [Decidable p] (b : Bool) (n : ℕ) (s : Bool) (ds : List Char),
      (if p then none else some (b, Nat.toDigits 10 n)) = some (s, ds) →
        ds ≠ [] ∧ ∀ c ∈ ds, c.isDigit = true := by
    intro p _ b n s ds h
    split at h
    · exact absurd h (by simp)
    · obtain ⟨-, rfl⟩ := Prod.mk.inj (Option.some.inj h)
      exact ⟨Nat.toDigits_ne_nil, fun c => isDigit_of_mem_toDigits⟩
  unfold toNumeral
  simp only
  generalize hdot : (if d.exp ≤ 0 ∧ -6 < d.exp + ((Nat.toDigits 10 d.coeff).length : ℤ)
    then d.exp + ((Nat.toDigits 10 d.coeff).length : ℤ) else 1) = dot
  split
  · refine ⟨by simp, by simp [isDigit_zero], ?_, fun s ds h => (hexp _ _ _ s ds h).1,
      fun s ds h => (hexp _ _ _ s ds h).2⟩
    rintro f hf c hc
    obtain rfl := Option.some.inj hf
    rcases List.mem_append.1 hc with hc | hc
    · exact hzero _ c hc
    · exact hds c hc
  · split
    · refine ⟨by simp, ?_, by simp, fun s ds h => (hexp _ _ _ s ds h).1,
        fun s ds h => (hexp _ _ _ s ds h).2⟩
      intro c hc
      rcases List.mem_append.1 hc with hc | hc
      · exact hds c hc
      · exact hzero _ c hc
    · refine ⟨?_, fun c hc => hds c (List.mem_of_mem_take hc), ?_,
        fun s ds h => (hexp _ _ _ s ds h).1, fun s ds h => (hexp _ _ _ s ds h).2⟩
      · intro h
        rw [List.take_eq_nil_iff] at h
        rcases h with h | h
        · omega
        · exact Nat.toDigits_ne_nil h
      · rintro f hf c hc
        obtain rfl := Option.some.inj hf
        exact hds c (List.mem_of_mem_drop hc)

/-- The exponent written for a shift of the point is read back as that shift. -/
theorem signed_toDigits (z : ℤ) :
    (if decide (z < 0) then -(Nat.ofDigitChars 10 (Nat.toDigits 10 z.natAbs) 0 : ℤ)
      else Nat.ofDigitChars 10 (Nat.toDigits 10 z.natAbs) 0) = z := by
  rw [Nat.ofDigitChars_ten_toDigits]
  by_cases hz : z < 0
  · simp only [hz, decide_true, if_true]
    omega
  · simp only [hz, decide_false, Bool.false_eq_true, if_false]
    omega

/-- The exponent of a numeral as an integer. -/
def expValue : Option (Bool × List Char) → ℤ
  | none => 0
  | some (s, ds) => if s then -(Nat.ofDigitChars 10 ds 0 : ℤ) else Nat.ofDigitChars 10 ds 0

theorem ofNumeral_eq (t : Numeral) :
    ofNumeral t = ⟨t.neg, Nat.ofDigitChars 10 (t.int ++ t.frac.getD []) 0,
      expValue t.exp - (t.frac.getD []).length⟩ := by
  cases h : t.exp with
  | none => simp [ofNumeral, expValue, h]
  | some p => simp [ofNumeral, expValue, h]

theorem expValue_shift (left dot : ℤ) :
    expValue (if left = dot then none
      else some (decide (left - dot < 0), Nat.toDigits 10 (left - dot).natAbs)) = left - dot := by
  split
  · next h => simp [expValue, h]
  · exact signed_toDigits (left - dot)

theorem ofNumeral_toNumeral (d : Decimal) : ofNumeral (toNumeral d) = d := by
  obtain ⟨neg, c, e⟩ := d
  have hlen : 0 < (Nat.toDigits 10 c).length := Nat.length_toDigits_pos
  have hval : Nat.ofDigitChars 10 (Nat.toDigits 10 c) 0 = c := Nat.ofDigitChars_ten_toDigits
  rw [ofNumeral_eq]
  unfold toNumeral
  simp only
  generalize hn : (Nat.toDigits 10 c).length = n at hlen
  generalize hdot : (if e ≤ 0 ∧ -6 < e + (n : ℤ) then e + (n : ℤ) else 1) = dot
  have hdot' : dot = e + n ∨ dot = 1 ∧ (0 < e ∨ e + n ≤ -6) := by
    rw [← hdot]
    split
    · exact Or.inl rfl
    · next h => exact Or.inr ⟨rfl, by omega⟩
  have hplain : dot = e + n → e ≤ 0 := by
    intro h
    by_contra hpos
    rw [if_neg (by omega)] at hdot
    omega
  split
  · -- the point stands left of every digit
    next h0 =>
      have hcoeff : Nat.ofDigitChars 10
          (['0'] ++ (List.replicate (-dot).toNat '0' ++ Nat.toDigits 10 c)) 0 = c := by
        rw [Nat.ofDigitChars_append, Nat.ofDigitChars_append, show ['0'] = List.replicate 1 '0' from rfl,
          Nat.ofDigitChars_replicate_zero, Nat.ofDigitChars_replicate_zero]
        simp
      simp only [Option.getD_some, hcoeff, expValue_shift, List.length_append,
        List.length_replicate, hn, Decimal.mk.injEq, true_and]
      omega
  · split
    · -- no fractional digits
      next h0 h1 =>
        simp only [Option.getD_none, List.append_nil, expValue_shift, List.length_nil,
          Nat.cast_zero, sub_zero]
        have hz : (dot - (n : ℤ)).toNat = 0 := by
          rcases hdot' with h | ⟨h, -⟩
          · have := hplain h
            omega
          · omega
        have hdn : dot = n := by omega
        rw [hz, List.replicate_zero, List.append_nil, hval]
        simp only [Decimal.mk.injEq, true_and]
        omega
    · -- the point stands inside the digits
      next h0 h1 =>
        simp only [Option.getD_some, List.take_append_drop, hval, expValue_shift, List.length_drop,
          hn, Decimal.mk.injEq, true_and]
        omega

/-- **Reading the string of a decimal gives the same sign, coefficient and exponent.** -/
theorem parse_str (d : Decimal) : parse d.str = some d := by
  unfold parse str
  rw [String.toList_ofList, lex_render (toNumeral_wellFormed d)]
  exact congrArg some (ofNumeral_toNumeral d)

/-- The string determines the decimal. -/
theorem str_injective : Function.Injective str := by
  intro a b h
  have h' := congrArg parse h
  rw [parse_str, parse_str] at h'
  exact Option.some.inj h'

/-- The characters of the string of a decimal. -/
theorem str_chars {d : Decimal} {c : Char} (hc : c ∈ d.str.toList) :
    c.isDigit = true ∨ c ∈ ['-', '+', '.', 'E'] := by
  have hwell := toNumeral_wellFormed d
  rw [str, String.toList_ofList, Numeral.render_eq, List.mem_append, List.mem_append,
    List.mem_append] at hc
  rcases hc with hc | hc | hc | hc
  · split at hc
    · exact .inr (by simp_all)
    · cases hc
  · exact .inl (hwell.int_digits c hc)
  · cases hfrac : (toNumeral d).frac with
    | none =>
        rw [hfrac] at hc
        cases hc
    | some f =>
        rw [hfrac, renderFrac, List.mem_cons] at hc
        rcases hc with rfl | hc
        · exact .inr (by simp)
        · exact .inl (hwell.frac_digits f hfrac c hc)
  · cases hexp : (toNumeral d).exp with
    | none =>
        rw [hexp] at hc
        cases hc
    | some p =>
        obtain ⟨s, ds⟩ := p
        rw [hexp, renderExp, List.mem_cons, List.mem_cons] at hc
        rcases hc with rfl | rfl | hc
        · exact .inr (by simp)
        · exact .inr (by cases s <;> simp)
        · exact .inl (hwell.exp_digits s ds hexp c hc)

example : (⟨false, 4250, -2⟩ : Decimal).str = "42.50" := by decide
example : (⟨true, 5, 3⟩ : Decimal).str = "-5E+3" := by decide

end Decimal

end AgentPay.Library
