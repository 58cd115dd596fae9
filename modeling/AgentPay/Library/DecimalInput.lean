import AgentPay.Library.Decimal
import AgentPay.Library.PyText

/-!
# Reading a decimal from any text

The constructor of `decimal.Decimal` on a text: white space around it and underscores do not count,
the digits of every script are digits, and besides the finite numerals there are infinities and
quiet and signalling NaNs. The comparison by `!=` finds a quiet NaN different from everything and
fails on a signalling one; finite decimals are compared by value, whatever their representation.
-/

set_option autoImplicit false

namespace AgentPay.Library

/-- A value of `decimal.Decimal`. -/
inductive DecimalValue where
  | finite (d : Decimal)
  | infinity (neg : Bool)
  | nan (signaling : Bool)
deriving DecidableEq

namespace DecimalValue

/-- The zeros of the scripts with decimal digits beyond ASCII. -/
def zeros : List ℕ :=
  [0x660, 0x6f0, 0x7c0, 0x966, 0x9e6, 0xa66, 0xae6, 0xb66, 0xbe6, 0xc66, 0xce6, 0xd66, 0xde6, 0xe50,
    0xed0, 0xf20, 0x1040, 0x1090, 0x17e0, 0x1810, 0x1946, 0x19d0, 0x1a80, 0x1a90, 0x1b50, 0x1bb0,
    0x1c40, 0x1c50, 0xa620, 0xa8d0, 0xa900, 0xa9d0, 0xa9f0, 0xaa50, 0xabf0, 0xff10, 0x104a0, 0x10d30,
    0x11066, 0x110f0, 0x11136, 0x111d0, 0x112f0, 0x11450, 0x114d0, 0x11650, 0x116c0, 0x11730,
    0x118e0, 0x11950, 0x11c50, 0x11d50, 0x11da0, 0x11f50, 0x16a60, 0x16ac0, 0x16b50, 0x1d7ce,
    0x1d7d8, 0x1d7e2, 0x1d7ec, 0x1d7f6, 0x1e140, 0x1e2f0, 0x1e4f0, 0x1e950, 0x1fbf0]

/-- A character of a numeral in ASCII. -/
def asciiDigit (c : Char) : Option Char :=
  if c.toNat < 128 then some c
  else zeros.findSome? fun z =>
    if z ≤ c.toNat ∧ c.toNat < z + 10 then some (Char.ofNat (48 + (c.toNat - z))) else none

/-- The text of a numeral in ASCII, without the white space around it and without underscores. -/
def ascii (text : String) : Option (List Char) :=
  ((strip text.toList).filter fun c => c ≠ '_').mapM asciiDigit

/-- An infinity or a NaN, in any case; a NaN may carry digits. -/
def special (cs : List Char) : Option DecimalValue :=
  let (neg, rest) := Decimal.lexSign cs
  let word := String.ofList ((rest.map Char.toLower).filter fun c => !c.isDigit)
  let digitsLast := (rest.dropWhile fun c => !c.isDigit).all Char.isDigit
  if word = "inf" ∨ word = "infinity" then
    if rest.any Char.isDigit then none else some (.infinity neg)
  else if digitsLast then
    if word = "nan" then some (.nan false)
    else if word = "snan" then some (.nan true)
    else none
  else none

/-- The exponents a decimal can have. -/
def withinLimits (d : Decimal) : Bool :=
  decide (-1999999999999999997 ≤ d.exp) &&
    decide (d.exp + Decimal.numDigits d.coeff - 1 ≤ 999999999999999999)

/-- `Decimal(text)`, if it does not fail. -/
def read (text : String) : Option DecimalValue := do
  let cs ← ascii text
  match special cs with
  | some value => some value
  | none =>
      let numeral ← Decimal.lex cs
      let d := Decimal.ofNumeral numeral
      if withinLimits d then some (.finite d) else none

/-- One number, whatever the representations. -/
def same : DecimalValue → DecimalValue → Bool
  | finite d, finite d' => decide (d.toRat = d'.toRat)
  | infinity neg, infinity neg' => neg == neg'
  | _, _ => false

/-- `a != b`, if it does not fail. -/
def differ (a b : DecimalValue) : Option Bool :=
  if a = nan true ∨ b = nan true then none else some (!same a b)

theorem same_of_differ {a b : DecimalValue} (h : differ a b = some false) : same a b = true := by
  rw [differ] at h
  split at h
  · cases h
  · simpa using h

/-- One number in two representations, with digits of another script. -/
example : (read " 12.50").bind (fun a => (read "1_2.5").bind (differ a)) = some false := by
  decide +kernel

example : read "١٢" = some (.finite ⟨false, 12, 0⟩) := by decide +kernel

example : (read "NaN").bind (fun a => differ a a) = some true := by decide +kernel

end DecimalValue

end AgentPay.Library
