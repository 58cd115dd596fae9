import AgentPay.Gateway.World
import AgentPay.Library.DecimalInput

/-!
# The payment provider

The provider of the demonstration answers a charge request in one step: nothing it does to its state
comes after a suspension. It verifies the authorization token, compares what the token binds with the
body of the request, and then does what its configured behaviour says. A charge that is recorded
consumes the token; a timeout and an upstream error record nothing and consume nothing.

The verification of a token is that of the JWT library: a token that verifies was issued, and has
not expired. `recordings` is not part of the provider's state; it is the history of the charges
recorded, each with the request and the token it was recorded under.
-/

set_option autoImplicit false

namespace AgentPay.Provider

open AgentPay.Library AgentPay.Gateway

/-- The claims of an authorization token, as `issue_authorization_token` writes them. -/
structure TokenClaims where
  iss : String
  aud : String
  sub : String
  jti : String
  iat : ℕ
  exp : ℕ
  paymentAuthorizationId : String
  agentId : String
  merchantId : String
  amount : String
  currency : String
  cartHash : String
  maxUses : ℕ := 1
  policyVersion : String
deriving DecidableEq

/-- The exceptions of the verification. -/
inductive JwtError where
  | expiredSignature
  | invalidToken (detail : String)
deriving DecidableEq

/-- `verify_authorization_token`: what it answers for a token at an instant. -/
structure Verifier where
  verify : Time → String → Except JwtError TokenClaims
  issued : TokenClaims → Prop
  sound : ∀ now token claims, verify now token = .ok claims → issued claims ∧ now < seconds claims.exp

/-- The body of a charge request. -/
structure ChargeBody where
  paymentAuthorizationId : String
  idempotencyKey : String
  amount : String
  currency : String
  merchantId : String
  cartHash : String
deriving DecidableEq

inductive Behaviour where
  | success
  | decline
  | error
  | timeout
deriving DecidableEq

/-- A request to `create_charge`: when it arrives, its header and body, and the identifier the
provider draws for it. -/
structure Arrival where
  now : Time
  authorization : Option String
  body : ChargeBody
  uuid : String
deriving DecidableEq

/-- A recorded charge. -/
inductive Charge where
  | declined
  | confirmed (providerReference amount currency merchantId : String) (instant : Time)
deriving DecidableEq

/-- A line of the call log. -/
structure CallEntry where
  instant : Time
  paymentAuthorizationId : String
  amount : String
  merchantId : String
deriving DecidableEq

/-- A charge with the request and the token it was recorded under. -/
structure Recording where
  arrival : Arrival
  claims : TokenClaims
  charge : Charge
deriving DecidableEq

/-- `STATE`, with the history. -/
structure State where
  behaviour : Behaviour := .success
  timeoutDelaySeconds : ℚ := 30
  charges : List (String × Charge) := []
  consumedJti : List String := []
  callCount : ℕ := 0
  calls : List CallEntry := []
  recordings : List Recording := []

/-- How a request fails: an `HTTPException`, or the exception of `Decimal` on a text it cannot
read. -/
inductive Failure where
  | http (statusCode : ℕ) (detail : String)
  | invalidOperation
deriving DecidableEq

/-- The body of an answer. -/
structure Reply where
  status : String
  providerReference : Option String := none
  detail : Option String := none
deriving DecidableEq

/-! ## Charge requests -/

/-- The token of a bearer header, `authorization.split(" ", 1)[1].strip()`. -/
def bearerToken (authorization : Option String) : Option String :=
  authorization.bind fun header =>
    if "bearer ".toList.isPrefixOf (header.toList.map Char.toLower) then
      some (String.ofList (strip ((header.toList.dropWhile fun c => c != ' ').drop 1)))
    else none

/-- The fields of the body the token disagrees with, the amount apart. -/
def mismatches (claims : TokenClaims) (body : ChargeBody) : List String :=
  [("merchant_id", claims.merchantId, body.merchantId),
    ("currency", claims.currency, body.currency),
    ("cart_hash", claims.cartHash, body.cartHash),
    ("payment_authorization_id", claims.paymentAuthorizationId, body.paymentAuthorizationId)].filterMap
      fun field => if field.2.1 ≠ field.2.2 then some field.1 else none

/-- `Decimal(claims["amount"]) != Decimal(body.amount)`. -/
def amountsDiffer (claims : TokenClaims) (body : ChargeBody) : Except Failure Bool :=
  match DecimalValue.read claims.amount, DecimalValue.read body.amount with
  | some a, some b =>
      match DecimalValue.differ a b with
      | some different => .ok different
      | none => .error .invalidOperation
  | _, _ => .error .invalidOperation

/-- The claims of the token a request carries, when it verifies. -/
def verifiedClaims (V : Verifier) (a : Arrival) : Except Failure TokenClaims :=
  match bearerToken a.authorization with
  | none => .error (.http 401 "missing authorization token")
  | some token =>
      match V.verify a.now token with
      | .ok claims => .ok claims
      | .error .expiredSignature => .error (.http 401 "authorization token expired")
      | .error (.invalidToken detail) =>
          .error (.http 401 ("invalid authorization token: " ++ detail))

/-- The comparison of a request with its token. -/
def checkBinding (claims : TokenClaims) (body : ChargeBody) : Except Failure Unit := do
  let different ← amountsDiffer claims body
  let fields := mismatches claims body ++ if different then ["amount"] else []
  if fields ≠ [] then
    .error (.http 422 ("charge does not match authorization token: " ++ ",".intercalate fields))
  else pure ()

/-- The checks of `create_charge`: the token that authorizes the request. -/
def authorizeCharge (V : Verifier) (s : State) (a : Arrival) : Except Failure TokenClaims := do
  let claims ← verifiedClaims V a
  if claims.jti ∈ s.consumedJti then .error (.http 409 "authorization token already used")
  else do
    checkBinding claims a.body
    pure claims

/-- A charge is recorded under its payment, and the token is consumed. -/
def State.record (s : State) (a : Arrival) (claims : TokenClaims) (charge : Charge) : State :=
  { s with
    consumedJti := claims.jti :: s.consumedJti
    charges := putKey a.body.paymentAuthorizationId charge s.charges
    recordings := s.recordings ++ [⟨a, claims, charge⟩] }

/-- The call log of `create_charge`. -/
def State.count (s : State) (a : Arrival) : State :=
  { s with
    callCount := s.callCount + 1
    calls := s.calls ++ [⟨a.now, a.body.paymentAuthorizationId, a.body.amount, a.body.merchantId⟩] }

/-- `create_charge`. -/
def createCharge (V : Verifier) (s : State) (a : Arrival) : State × Except Failure Reply :=
  let s := s.count a
  let reference := "ch_" ++ firstChars 16 a.uuid
  match authorizeCharge V s a with
  | .error e => (s, .error e)
  | .ok claims =>
      match s.behaviour with
      | .timeout => (s, .ok ⟨"confirmed", some reference, none⟩)
      | .error => (s, .error (.http 502 "provider upstream error"))
      | .decline =>
          (s.record a claims .declined, .ok ⟨"declined", none, some "card declined"⟩)
      | .success =>
          (s.record a claims
              (.confirmed reference a.body.amount a.body.currency a.body.merchantId a.now),
            .ok ⟨"confirmed", some reference, none⟩)

/-- `set_behaviour`. -/
def setBehaviour (s : State) (behaviour : Behaviour) (timeoutDelaySeconds : Option ℚ) : State :=
  { s with
    behaviour := behaviour
    timeoutDelaySeconds := timeoutDelaySeconds.getD s.timeoutDelaySeconds }

/-- What arrives at the provider. -/
inductive ProviderEvent where
  | charge (a : Arrival)
  | behaviour (behaviour : Behaviour) (timeoutDelaySeconds : Option ℚ)

/-- The effect of an event. -/
def State.step (V : Verifier) (s : State) : ProviderEvent → State
  | .charge a => (createCharge V s a).1
  | .behaviour b delay => setBehaviour s b delay

/-- The state after a run of events. -/
def State.run (V : Verifier) (s : State) (events : List ProviderEvent) : State :=
  events.foldl (State.step V) s

end AgentPay.Provider
