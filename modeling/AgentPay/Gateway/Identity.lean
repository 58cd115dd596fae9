import AgentPay.Gateway.Canonical
import AgentPay.Gateway.Store

/-!
# Identity and the edge rate limit

The two gates in front of the pipeline. Identity fails closed, with an `IdentityError` when the
delegation token is missing, invalid, bound to other fields, out of scope, revoked, or when its
revocation cannot be checked. The rate limit fails open: only its own verdict stops a request.
-/

set_option autoImplicit false

namespace AgentPay.Gateway

open AgentPay.Library

/-- The claims of a delegation token. -/
structure DelegationClaims where
  sub : String
  agentId : Option String
  delegationId : Option String
  scopes : List String
  exp : ℕ
deriving DecidableEq

/-- A presented credential: no bearer token, a token signed by the control plane, or a token that
does not verify. -/
inductive Credential where
  | missing
  | signed (claims : DelegationClaims)
  | garbage
deriving DecidableEq

def requiredScope : String := "payments:authorize"

/-- A claim counts as present when it is not empty. -/
def presentClaim (c : Option String) : Option String := c.filter fun s => decide (s ≠ "")

/-- `decode_delegation_token` at an instant. -/
def decodeDelegationToken (now : Time) : Credential → Except Exn AgentIdentity
  | .missing => .error (.identityError "MISSING_CREDENTIALS" "missing bearer delegation token")
  | .garbage => .error (.identityError "INVALID_IDENTITY" "invalid delegation token")
  | .signed claims =>
      if seconds claims.exp ≤ now then
        .error (.identityError "DELEGATION_EXPIRED" "delegation token expired")
      else match presentClaim claims.agentId, presentClaim claims.delegationId with
        | some agentId, some delegationId =>
            .ok ⟨agentId, claims.sub, delegationId, claims.scopes⟩
        | agentId, delegationId =>
            let missing := (if agentId.isNone then ["agent_id"] else []) ++
              (if delegationId.isNone then ["delegation_id"] else [])
            .error (.identityError "INVALID_IDENTITY"
              ("delegation token missing claims: " ++ ",".intercalate missing))

/-- `assert_binding`: the fields of the intent the identity disagrees with. -/
def bindingMismatches (identity : AgentIdentity) (intent : PaymentIntent) : List String :=
  (if identity.agentId ≠ intent.agentId then ["agent_id"] else []) ++
  (if identity.userId ≠ intent.userId then ["user_id"] else []) ++
  (if identity.delegationId ≠ intent.delegationId then ["delegation_id"] else [])

/-- `assert_not_revoked`. -/
def assertNotRevoked (delegationId : String) : Py Unit := do
  let revoked ← (perform (.isRevoked delegationId)).recover fun e =>
    if e.isException then
      Prog.throw (.identityError "REVOCATION_CHECK_UNAVAILABLE"
        "cannot verify delegation revocation status; failing closed")
    else Prog.throw e
  if revoked then Prog.throw (.identityError "DELEGATION_REVOKED" "delegation has been revoked")
  else pure ()

/-- `authenticate`. -/
def authenticate (credential : Credential) (intent : PaymentIntent) : Py AgentIdentity := do
  let now ← perform .now
  let identity ← (Prog.ret (decodeDelegationToken now credential) : Py AgentIdentity)
  let mismatches := bindingMismatches identity intent
  if mismatches ≠ [] then
    Prog.throw (.identityError "IDENTITY_INTENT_MISMATCH"
      ("delegation token does not match intent fields: " ++ ",".intercalate mismatches))
  else if requiredScope ∉ identity.scopes then
    Prog.throw (.identityError "AGENT_SCOPE_VIOLATION"
      ("agent " ++ identity.agentId ++ " lacks required scope " ++ requiredScope))
  else do
    assertNotRevoked identity.delegationId
    pure identity

/-! ## The edge rate limit -/

/-- The window of the edge rate limit in seconds. -/
def rateLimitWindow : ℕ := 60

/-- Refusal of a request over one ceiling. -/
def checkCeiling (key : String) (limit : ℤ) (scope : String) : Py Unit :=
  if 0 < limit then do
    let n ← zcountWindow key rateLimitWindow
    if limit ≤ n then Prog.throw (.rateLimitError scope limit) else pure ()
  else pure ()

/-- Recording of a request under one ceiling. -/
def recordRequest (key : String) (limit : ℤ) : Py Unit :=
  if 0 < limit then do
    let _ ← zaddWindow key rateLimitWindow
    pure ()
  else pure ()

/-- `enforce_edge_rate_limit`. -/
def enforceEdgeRateLimit (R : Runtime) (agentId delegationId : String) : Py Unit :=
  if R.settings.edgeRateLimitEnabled then
    Prog.recover
      (do
        checkCeiling ("agentpay:rl:agent:" ++ agentId) R.settings.edgeRateLimitAgentPerMin
          ("agent " ++ agentId)
        checkCeiling ("agentpay:rl:deleg:" ++ delegationId)
          R.settings.edgeRateLimitDelegationPerMin ("delegation " ++ delegationId)
        recordRequest ("agentpay:rl:agent:" ++ agentId) R.settings.edgeRateLimitAgentPerMin
        recordRequest ("agentpay:rl:deleg:" ++ delegationId)
          R.settings.edgeRateLimitDelegationPerMin)
      fun e => match e with
        | .rateLimitError scope limit => Prog.throw (.rateLimitError scope limit)
        | .cancelled => Prog.throw .cancelled
        | _ => pure ()
  else pure ()

end AgentPay.Gateway
