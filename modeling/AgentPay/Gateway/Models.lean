import AgentPay.Gateway.Schemas

/-!
# Persistence models

The rows of the database. A `Numeric(12, 2)` column holds a whole number of hundredths; writing a
decimal into it rounds ties away from zero.
-/

set_option autoImplicit false

namespace AgentPay.Gateway

open AgentPay.Library

/-- The hundredths a `Numeric(12, 2)` column stores for a decimal. -/
def hundredths (d : Decimal) : ℤ := (d.mulExact (.ofNat 100)).toIntegralHalfUp.toInt

/-- The hundredths a `Numeric(12, 2)` column can hold. -/
def FitsNumeric (n : ℤ) : Prop := n.natAbs < 10 ^ 12

/-- A registered agent. -/
structure AgentRegistration where
  agentId : String
  ownerUserId : String
  allowedScopes : List String
  allowedMerchantCategories : List String
  active : Bool
deriving DecidableEq

/-- The spending policy bound to a delegation. -/
structure SpendingPolicy where
  delegationId : String
  userId : String
  agentId : String
  policyVersion : String
  perTransactionLimit : ℤ
  dailyLimit : ℤ
  currency : String
  allowedMerchants : List String
  blockedMerchants : List String
  requireVerifiedMerchant : Bool
  approvalThreshold : ℤ
  maxTransactionsPerHour : ℤ
  revoked : Bool
  perTransactionLimit_fits : FitsNumeric perTransactionLimit
  dailyLimit_fits : FitsNumeric dailyLimit
  approvalThreshold_fits : FitsNumeric approvalThreshold
deriving DecidableEq

/-- A registered merchant. -/
structure Merchant where
  merchantId : String
  category : String
  verified : Bool
  riskScore : ℚ
deriving DecidableEq

/-- One payment authorization attempt, carrying the state machine. -/
structure Transaction where
  paymentAuthorizationId : ℕ
  idempotencyKey : String
  payloadHash : String
  fingerprint : String
  userId : String
  agentId : String
  delegationId : String
  merchantId : String
  amount : ℤ
  currency : String
  cartHash : String
  decision : Decision
  reasonCodes : List String
  state : PaymentState
  risk : RiskAssessment
  policyVersion : String
  tokenJti : Option ℕ := none
  tokenUses : ℕ := 0
  tokenExpiresAt : Option Time := none
  providerReference : Option String := none
  providerDetail : Option String := none
  createdAt : Time
deriving DecidableEq

/-- The row as it was inserted, without what was written later. -/
def Transaction.asInserted (r : Transaction) : Transaction :=
  { r with
    state := .created
    tokenJti := none
    tokenUses := 0
    tokenExpiresAt := none
    providerReference := none
    providerDetail := none }

/-- One event of the hash-chained audit log. -/
structure AuditEvent where
  eventId : ℕ
  eventType : String
  paymentAuthorizationId : Option ℕ
  userId : Option String
  agentId : Option String
  decision : Option String
  reasonCodes : List String
  risk : Json
  policyVersion : Option String
  payload : Json
  prevHash : String
  eventHash : String
  createdAt : Time

/-- The partial unique index `uq_user_idempotency_authorized`: two rows clash when both are not
blocked and they share user and idempotency key. -/
def Transaction.clashes (a b : Transaction) : Bool :=
  decide (a.decision ≠ .block ∧ b.decision ≠ .block ∧ a.userId = b.userId ∧
    a.idempotencyKey = b.idempotencyKey)

end AgentPay.Gateway
