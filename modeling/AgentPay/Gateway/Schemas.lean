import AgentPay.Gateway.Config
import AgentPay.Library.Decimal
import AgentPay.Library.Json

/-!
# Wire schemas

The typed payment intent, the evidence types and the decision response. The constraints that the
schema puts on a payment intent are fields of the structures, so a value of `PaymentIntent` is an
intent the schema accepts.
-/

set_option autoImplicit false

namespace AgentPay.Gateway

open AgentPay.Library

/-- Where the content around a transaction came from. -/
inductive SourceType where
  | officialApi | verifiedCatalog | scrapedPage | email | userUpload | unknown
deriving DecidableEq, Repr

/-- The three decisions of the policy. -/
inductive Decision where
  | allow | requireApproval | block
deriving DecidableEq, Repr

/-- The wire text of a decision. -/
def Decision.value : Decision → String
  | .allow => "ALLOW"
  | .requireApproval => "REQUIRE_APPROVAL"
  | .block => "BLOCK"

/-- The decision of a wire text. -/
def Decision.ofValue? (s : String) : Option Decision :=
  if s = "ALLOW" then some .allow
  else if s = "REQUIRE_APPROVAL" then some .requireApproval
  else if s = "BLOCK" then some .block
  else none

@[simp] theorem Decision.ofValue?_value (d : Decision) : Decision.ofValue? d.value = some d := by
  cases d <;> decide

/-- The lifecycle of a payment. -/
inductive PaymentState where
  | created | authorized | submitted | confirmed | failed | timeout | unknown | expired
deriving DecidableEq, Repr

/-- The wire text of a payment state. -/
def PaymentState.value : PaymentState → String
  | .created => "CREATED"
  | .authorized => "AUTHORIZED"
  | .submitted => "SUBMITTED"
  | .confirmed => "CONFIRMED"
  | .failed => "FAILED"
  | .timeout => "TIMEOUT"
  | .unknown => "UNKNOWN"
  | .expired => "EXPIRED"

/-- At most two decimal places: a whole number of hundredths. -/
def AtMostTwoPlaces (d : Decimal) : Prop := ∃ n : ℤ, d.toRat * 100 = n

/-- A monetary amount of the wire: positive, at most two decimal places, and twelve digits of
which two are decimal places. -/
structure Money where
  amount : Decimal
  positive : 0 < amount.toRat
  twoPlaces : AtMostTwoPlaces amount
  wholeDigits : amount.toRat < 10 ^ 10

/-- One line of the cart. -/
structure CartItem where
  sku : String
  name : String
  quantity : ℕ
  unitPrice : Money
  sku_length : 1 ≤ sku.length ∧ sku.length ≤ 128
  name_length : 1 ≤ name.length ∧ name.length ≤ 512
  quantity_range : 0 < quantity ∧ quantity ≤ 10000

/-- Text harvested from the merchant surface. -/
structure MerchantContent where
  sourceType : SourceType
  sourceUrl : String
  text : String
  url_length : sourceUrl.length ≤ 2048
  text_length : text.length ≤ 20000

/-- The claims of a human-approval token. The bound amount travels as text. -/
structure ApprovalClaims where
  sub : String
  jti : ℕ
  iat : ℕ
  exp : ℕ
  approvalRequestId : ℕ
  boundMerchantId : String
  boundAmount : String
  boundCurrency : String
  boundCartHash : String
deriving DecidableEq

/-- A presented approval token: a signed set of claims, or text that carries no signature. -/
inductive ApprovalToken where
  | signed (claims : ApprovalClaims)
  | garbage
deriving DecidableEq

/-- The typed payment instruction. -/
structure PaymentIntent where
  idempotencyKey : String
  agentId : String
  userId : String
  delegationId : String
  merchantId : String
  merchantVerified : Bool
  amount : Money
  currency : String
  items : List CartItem
  purpose : String
  merchantContent : MerchantContent
  toolArguments : List (String × Json)
  approvalToken : Option ApprovalToken
  idempotencyKey_length : 8 ≤ idempotencyKey.length ∧ idempotencyKey.length ≤ 128
  agentId_length : 1 ≤ agentId.length ∧ agentId.length ≤ 128
  userId_length : 1 ≤ userId.length ∧ userId.length ≤ 128
  delegationId_length : 1 ≤ delegationId.length ∧ delegationId.length ≤ 128
  merchantId_length : 1 ≤ merchantId.length ∧ merchantId.length ≤ 128
  currency_pattern : currency.length = 3 ∧ ∀ c ∈ currency.toList, 'A' ≤ c ∧ c ≤ 'Z'
  items_length : 1 ≤ items.length ∧ items.length ≤ 200
  purpose_length : purpose.length ≤ 2000

/-- Insertion of a cart line by its SKU, before the lines with a larger one. -/
def insertItem (i : CartItem) : List CartItem → List CartItem
  | [] => [i]
  | j :: rest => if j.sku < i.sku then j :: insertItem i rest else i :: j :: rest

/-- The cart in a stable order by SKU. -/
def sortItems : List CartItem → List CartItem
  | [] => []
  | i :: rest => insertItem i (sortItems rest)

/-- The digest of the cart: SKU, quantity and unit price of each line. -/
def PaymentIntent.cartHash (R : Runtime) (intent : PaymentIntent) : String :=
  R.sha256 (Json.dumps (Json.compact R.floatRepr) (.arr ((sortItems intent.items).map fun i =>
    .obj [("sku", .str i.sku), ("quantity", .int i.quantity),
      ("unit_price", .str i.unitPrice.amount.str)])))

/-- The digest of the money-moving fields. -/
def PaymentIntent.payloadHash (R : Runtime) (intent : PaymentIntent) : String :=
  R.sha256 (Json.dumps (Json.compact R.floatRepr) (.obj [
    ("user_id", .str intent.userId), ("agent_id", .str intent.agentId),
    ("merchant_id", .str intent.merchantId), ("amount", .str intent.amount.amount.str),
    ("currency", .str intent.currency), ("cart_hash", .str (intent.cartHash R))]))

/-- The normalized evidence of the risk engine. -/
structure RiskSignals where
  injectionConfidence : ℚ := 0
  injectionLabels : List String := []
  policyViolationScore : ℚ := 0
  budgetAnomalyScore : ℚ := 0
  merchantRiskScore : ℚ := 0
  velocityRiskScore : ℚ := 0
  sourceTrustScore : ℚ := 1
  classifierDegraded : Bool := false
deriving DecidableEq

/-- The signals with their weighted score. -/
structure RiskAssessment where
  signals : RiskSignals
  weightedScore : ℚ
  policyVersionContext : String
deriving DecidableEq

/-- The claims of the scoped payment credential. -/
structure AuthorizationClaims where
  sub : String
  jti : ℕ
  iat : ℕ
  exp : ℕ
  paymentAuthorizationId : ℕ
  agentId : String
  merchantId : String
  amount : String
  currency : String
  cartHash : String
  policyVersion : String
deriving DecidableEq

/-- The credential as the response carries it; the token string is its claims. -/
structure AuthorizationToken where
  token : AuthorizationClaims
  paymentAuthorizationId : ℕ
  merchantId : String
  amount : Decimal
  currency : String
  cartHash : String
  expiresAt : Time
  policyVersion : String
deriving DecidableEq

/-- The answer of the payment-intent endpoint. -/
structure DecisionResponse where
  paymentAuthorizationId : ℕ
  decision : Decision
  reasonCodes : List String
  state : PaymentState
  risk : RiskAssessment
  policyVersion : String
  authorization : Option AuthorizationToken := none
  providerReference : Option String := none
  auditEventId : Option ℕ := none
  auditHash : Option String := none
  createdAt : Time
  replayed : Bool := false
  message : String := ""
deriving DecidableEq

end AgentPay.Gateway
