import AgentPay.Gateway.Answers
import AgentPay.Library.Partner
import AgentPay.Provider.Charges

/-!
# The provider across a network

The provider as the partner of the gateway. Charges and queries that were sent are in flight until
they arrive, in any order, or are lost; a client that gave up waiting takes nothing back. Anyone may
present a token at the provider, but a signature cannot be forged: what verifies was signed by the
gateway. A reply reaches the request it answers, later or never. The delay of the hanging behaviour
outlasts the gateway's client, so its answer reaches nobody. The gateway and the provider read one
clock.
-/

set_option autoImplicit false

namespace AgentPay.Provider

open AgentPay.Library AgentPay.Library.Machine AgentPay.Gateway

/-- The encoding of tokens, their verification, and the texts of JSON responses and of instants. -/
structure Wire where
  issuer : String := "agentpay-control-plane"
  encode : TokenClaims → String
  verifier : Verifier
  render : Json → String
  isoTime : Time → String

/-- `AUTH_AUDIENCE`. -/
def authAudience : String := "agentpay-provider"

/-- The claims of a payment credential as they are encoded. -/
def Wire.tokenClaims (W : Wire) (claims : AuthorizationClaims) : TokenClaims where
  iss := W.issuer
  aud := authAudience
  sub := claims.sub
  jti := "pat_" ++ toString claims.jti
  iat := claims.iat
  exp := claims.exp
  paymentAuthorizationId := paymentAuthorizationText claims.paymentAuthorizationId
  agentId := claims.agentId
  merchantId := claims.merchantId
  amount := claims.amount
  currency := claims.currency
  cartHash := claims.cartHash
  policyVersion := claims.policyVersion

/-- The body of a charge as it is sent. -/
def chargeBody (body : ChargeRequest) : ChargeBody where
  paymentAuthorizationId := paymentAuthorizationText body.paymentAuthorizationId
  idempotencyKey := body.idempotencyKey
  amount := body.amount
  currency := body.currency
  merchantId := body.merchantId
  cartHash := body.cartHash

/-- The request to `create_charge` that `submit` makes, as it arrives. -/
def Wire.arrival (W : Wire) (now : Time) (token : AuthorizationClaims) (body : ChargeRequest)
    (uuid : String) : Arrival where
  now := now
  authorization := some ("Bearer " ++ W.encode (W.tokenClaims token))
  body := chargeBody body
  uuid := uuid

/-! ## Responses -/

/-- A JSON response. -/
def Wire.respond (W : Wire) (statusCode : ℕ) (body : Json) : ProviderReply where
  statusCode := statusCode
  text := W.render body
  json := some body

/-- The response to an exception. -/
def Wire.failure (W : Wire) : Failure → ProviderReply
  | .http statusCode detail => W.respond statusCode (.obj [("detail", .str detail)])
  | .invalidOperation => { statusCode := 500, text := "Internal Server Error", json := none }

/-- The body of an answer; a key that is not set is missing. -/
def Reply.toJson (r : Reply) : Json :=
  .obj ([("status", .str r.status)] ++
    (r.providerReference.map fun reference => ("provider_reference", .str reference)).toList ++
    (r.detail.map fun detail => ("detail", .str detail)).toList)

/-- The response to a charge. -/
def Wire.chargeReply (W : Wire) : Except Failure Reply → ProviderReply
  | .ok r => W.respond 200 r.toJson
  | .error e => W.failure e

/-- A recorded charge as `STATE` holds it. -/
def Wire.chargeJson (W : Wire) : Charge → Json
  | .declined => .obj [
      ("status", .str "declined"),
      ("detail", .str "card declined"),
      ("provider_reference", .null)]
  | .confirmed providerReference amount currency merchantId instant => .obj [
      ("status", .str "confirmed"),
      ("provider_reference", .str providerReference),
      ("amount", .str amount),
      ("currency", .str currency),
      ("merchant_id", .str merchantId),
      ("at", .str (W.isoTime instant))]

/-- `get_charge`. -/
def Wire.getCharge (W : Wire) (s : State) (paymentAuthorizationId : String) : ProviderReply :=
  match s.charges.lookup paymentAuthorizationId with
  | some charge => W.respond 200 (W.chargeJson charge)
  | none => W.failure (.http 404 "no such charge")

/-! ## The network -/

/-- A charge in flight, with the thread that sent it. -/
structure SentCharge where
  tid : ℕ
  token : AuthorizationClaims
  body : ChargeRequest

/-- A response on its way, with the thread and the payment it is for. -/
structure Dispatch where
  tid : ℕ
  paymentAuthorizationId : ℕ
  reply : ProviderReply

/-- The provider, what is in flight to it, and the responses on their way. -/
structure Network where
  provider : State := {}
  charges : List SentCharge := []
  queries : List (ℕ × ℕ) := []
  chargeReplies : List Dispatch := []
  queryReplies : List Dispatch := []

/-- A message leaves when it is sent, even if its sender learns of a failure. -/
def Network.notices (n : Network) (ev : Event) : Network :=
  match ev.op with
  | .sendCharge token body => { n with charges := ⟨ev.tid, token, body⟩ :: n.charges }
  | .sendQuery id => { n with queries := (ev.tid, id) :: n.queries }
  | _ => n

/-- A response that is received was on its way. -/
def Network.offers (n : Network) (ev : Event) : Prop :=
  match (⟨ev.op, ev.answer⟩ : (op : Op) × Except Exn op.Val) with
  | ⟨.awaitCharge id, .ok reply⟩ => ⟨ev.tid, id, reply⟩ ∈ n.chargeReplies
  | ⟨.awaitQuery id, .ok reply⟩ => ⟨ev.tid, id, reply⟩ ∈ n.queryReplies
  | _ => True

/-- What the network and the provider do. -/
inductive NetworkStep where
  | deliverCharge (i : ℕ) (uuid : String)
  | present (authorization : Option String) (body : ChargeBody) (uuid : String)
  | loseCharge (i : ℕ)
  | deliverQuery (i : ℕ)
  | setBehaviour (behaviour : Behaviour) (timeoutDelaySeconds : Option ℚ)

/-- What verifies was signed by the gateway. -/
def Wire.unforged (W : Wire) (c : Config) (a : Arrival) : Bool :=
  match verifiedClaims W.verifier a with
  | .ok claims => c.world.authorizations.any fun t => decide (W.tokenClaims t = claims)
  | .error _ => true

/-- A charge arrives, and its response sets out. -/
def Wire.deliverCharge (W : Wire) (c : Config) (n : Network) (i : ℕ) (uuid : String) :
    Option Network :=
  n.charges[i]?.bind fun sent =>
    let a := W.arrival c.world.clock sent.token sent.body uuid
    let (provider, result) := createCharge W.verifier n.provider a
    if W.unforged c a then
      some { n with
        provider
        charges := n.charges.eraseIdx i
        chargeReplies :=
          if n.provider.behaviour = .timeout then n.chargeReplies
          else ⟨sent.tid, sent.body.paymentAuthorizationId, W.chargeReply result⟩ ::
            n.chargeReplies }
    else none

/-- Anyone's request arrives. -/
def Wire.present (W : Wire) (c : Config) (n : Network) (a : Arrival) : Option Network :=
  if W.unforged c a then some { n with provider := (createCharge W.verifier n.provider a).1 }
  else none

/-- A charge in flight is lost. -/
def loseCharge (n : Network) (i : ℕ) : Option Network :=
  if i < n.charges.length then some { n with charges := n.charges.eraseIdx i } else none

/-- A query arrives, and its response sets out. -/
def Wire.deliverQuery (W : Wire) (n : Network) (i : ℕ) : Option Network :=
  n.queries[i]?.map fun (tid, id) =>
    { n with
      queries := n.queries.eraseIdx i
      queryReplies :=
        ⟨tid, id, W.getCharge n.provider (paymentAuthorizationText id)⟩ :: n.queryReplies }

/-- The network and the provider take a step. -/
def Wire.act (W : Wire) (c : Config) (n : Network) : NetworkStep → Option Network
  | .deliverCharge i uuid => W.deliverCharge c n i uuid
  | .present authorization body uuid => W.present c n ⟨c.world.clock, authorization, body, uuid⟩
  | .loseCharge i => loseCharge n i
  | .deliverQuery i => W.deliverQuery n i
  | .setBehaviour behaviour delay =>
      some { n with provider := setBehaviour n.provider behaviour delay }

/-- The partner of the gateway; nothing is in flight and nothing recorded at first. -/
def Wire.network (W : Wire) :
    Partner World Job Outcome Op Op.Val Exn Response Network NetworkStep where
  initial n := ∃ behaviour delay,
    n = { provider := { behaviour := behaviour, timeoutDelaySeconds := delay } }
  notices := Network.notices
  offers := Network.offers
  act := W.act

end AgentPay.Provider
