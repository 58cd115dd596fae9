import AgentPay.Gateway.Models

/-!
# The canonical transaction builder

Turns an accepted intent and a verified identity into the object every later stage reads. Free text
is carried in one bag of untrusted content.
-/

set_option autoImplicit false

namespace AgentPay.Gateway

open AgentPay.Library

/-- A verified agent identity. -/
structure AgentIdentity where
  agentId : String
  userId : String
  delegationId : String
  scopes : List String
deriving DecidableEq

/-- The free-text fields of an intent. -/
structure UntrustedContent where
  merchantText : String
  merchantSourceType : SourceType
  merchantSourceUrl : String
  purpose : String
  toolArgumentsText : String
deriving DecidableEq

/-- The canonical transaction. -/
structure CanonicalTransaction where
  paymentAuthorizationId : ℕ
  idempotencyKey : String
  payloadHash : String
  fingerprint : String
  userId : String
  agentId : String
  delegationId : String
  agentScopes : List String
  merchantId : String
  merchantVerifiedClaim : Bool
  amount : Decimal
  currency : String
  cartHash : String
  itemCount : ℕ
  untrusted : UntrustedContent
  approvalToken : Option ApprovalToken
deriving DecidableEq

/-- The digest of user, merchant, cart, amount, currency and the time bucket of `timestamp`. -/
def transactionFingerprint (R : Runtime) (userId merchantId cartHash : String) (amount : Decimal)
    (currency : String) (timestamp : Time) : String :=
  let bucket := timestamp / seconds R.settings.fingerprintWindowSeconds
  R.sha256 (userId ++ "|" ++ merchantId ++ "|" ++ cartHash ++ "|" ++ amount.str ++ "|" ++
    currency ++ "|" ++ toString bucket)

/-- The canonical transaction of an intent under an identity; `timestamp` is the instant at which
the fingerprint reads the clock. -/
def buildCanonical (R : Runtime) (intent : PaymentIntent) (identity : AgentIdentity)
    (paymentAuthorizationId : ℕ) (timestamp : Time) : CanonicalTransaction where
  paymentAuthorizationId := paymentAuthorizationId
  idempotencyKey := intent.idempotencyKey
  payloadHash := intent.payloadHash R
  fingerprint := transactionFingerprint R identity.userId intent.merchantId (intent.cartHash R)
    intent.amount.amount intent.currency timestamp
  userId := identity.userId
  agentId := identity.agentId
  delegationId := identity.delegationId
  agentScopes := identity.scopes
  merchantId := intent.merchantId
  merchantVerifiedClaim := intent.merchantVerified
  amount := intent.amount.amount
  currency := intent.currency
  cartHash := intent.cartHash R
  itemCount := (intent.items.map CartItem.quantity).sum
  untrusted := {
    merchantText := intent.merchantContent.text
    merchantSourceType := intent.merchantContent.sourceType
    merchantSourceUrl := intent.merchantContent.sourceUrl
    purpose := intent.purpose
    toolArgumentsText :=
      if intent.toolArguments.isEmpty then ""
      else Json.dumps (Json.spaced R.floatRepr) (.obj intent.toolArguments) }
  approvalToken := intent.approvalToken

end AgentPay.Gateway
