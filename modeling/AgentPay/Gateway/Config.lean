import AgentPay.Library.Json

/-!
# Settings and the functions of the platform

`Settings` holds the configuration the modelled code reads, with its defaults. `Runtime` adds the
library functions the code computes with and the model does not define: the SHA-256 digest in
hexadecimal, the texts of a float, of an instant and of a parsed JSON value, and the power
`x ** 1.5` of the risk engine.

Instants and durations are natural numbers of microseconds.
-/

set_option autoImplicit false

namespace AgentPay.Gateway

open AgentPay.Library

/-- An instant or a duration in microseconds. -/
abbrev Time := ℕ

/-- A duration given in seconds. -/
def seconds (n : ℕ) : Time := n * 1000000

/-- The first `n` characters of a text. -/
def firstChars (n : ℕ) (s : String) : String := String.ofList (s.toList.take n)

/-- The configuration read by the enforcement pipeline. -/
structure Settings where
  policyVersion : String := "v1.4.2"
  allowDegradedClassifier : Bool := false
  degradedClassifierRequiresReview : Bool := true
  tokenTtlSeconds : ℕ := 300
  fingerprintWindowSeconds : ℕ := 300
  idempotencyTtlSeconds : ℕ := 86400
  lockTtlSeconds : ℕ := 10
  edgeRateLimitEnabled : Bool := true
  edgeRateLimitAgentPerMin : ℤ := 90
  edgeRateLimitDelegationPerMin : ℤ := 150
deriving DecidableEq

/-- The settings together with the library functions taken as parameters. -/
structure Runtime where
  settings : Settings
  sha256 : String → String
  floatRepr : ℚ → String
  isoTime : Time → String
  jsonStr : Json → String
  power15 : ℚ → ℚ

end AgentPay.Gateway
