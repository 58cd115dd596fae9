import AgentPay.Gateway.Routes

/-!
# Resuming a run of the simulator

`approve_and_resume` as a coroutine beside the gateway: it tests the status of the run, grants the
approval at the gateway, resumes the graph, and stores the status the run has then. The graph runs
the node that submits the approved payment, or has ended before. The client waits for the gateway's
answer, or gives up while the gateway goes on with the request. Calls for one run share its record.
-/

set_option autoImplicit false

namespace AgentPay.Simulator

open AgentPay.Library AgentPay.Library.Machine AgentPay.Gateway AgentPay.Policies

/-- The status of a run. -/
inductive RunStatus where
  | running
  | awaitingApproval
  | completed
  | blocked
deriving DecidableEq

/-- `SimulatorError`, by its code, and the exceptions of the HTTP client. -/
inductive SimulatorError where
  | unknownRun
  | runNotAwaitingApproval
  | noApprovalRequest
  | gatewayUnreachable
  | httpError
deriving DecidableEq

/-- The hexadecimal digits of a fresh idempotency key. -/
abbrev KeySuffix := { hex : String // hex.length = 12 }

/-- The operations of a call. `post` sends a request to the gateway and answers with its thread there. -/
inductive CallOp where
  | getRun
  | approvalRequestId
  | post (job : Job)
  | awaitGrant (tid : ℕ)
  | updateState (token : ApprovalClaims)
  | invoke
  | uuidHex
  | delegationToken
  | awaitDecision (tid : ℕ)
  | addDecision (decision : Decision)
  | latestDecision
  | setStatus (status : RunStatus)

/-- The values the operations answer with. The graph answers with the status it ended with before, or
with the token in its state when the node is run. -/
abbrev CallOp.Val : CallOp → Type
  | getRun => Option RunStatus
  | approvalRequestId => Option ℕ
  | post _ => ℕ
  | awaitGrant _ => ApprovalClaims
  | updateState _ => Unit
  | invoke => RunStatus ⊕ Option ApprovalClaims
  | uuidHex => KeySuffix
  | delegationToken => Credential
  | awaitDecision _ => Decision
  | addDecision _ => Unit
  | latestDecision => Option Decision
  | setStatus _ => Unit

/-- A call. -/
abbrev Call (α : Type) := Prog CallOp CallOp.Val SimulatorError α

abbrev perform (op : CallOp) : Call op.Val := Prog.perform op

/-- The idempotency key of a resumed run. -/
def approvedKey (hex : KeySuffix) : String := "crew-approved-" ++ hex.val

theorem length_approvedKey (hex : KeySuffix) : (approvedKey hex).length = 26 := by
  rw [approvedKey, String.length_append, hex.property]
  rfl

/-- The payment of the run under a fresh key, with the token of its approval. -/
def approvedIntent (order : PaymentIntent) (hex : KeySuffix) (token : Option ApprovalClaims) :
    PaymentIntent :=
  { order with
    idempotencyKey := approvedKey hex
    approvalToken := token.map .signed
    idempotencyKey_length := by rw [length_approvedKey]; decide }

/-- `SentinelClient.grant_approval`. -/
def grantApproval (approvalRequestId : ℕ) : Call ApprovalClaims := do
  let tid ← perform (.post (.grantApproval approvalRequestId))
  perform (.awaitGrant tid)

/-- `SentinelClient.submit`. -/
def submit (order : PaymentIntent) (hex : KeySuffix) (token : Option ApprovalClaims) :
    Call Decision := do
  let credential ← perform .delegationToken
  let tid ← perform (.post (.paymentIntent (approvedIntent order hex token) credential true))
  perform (.awaitDecision tid)

/-- The tool of `build_sentinel_tool`: the submission under `except httpx.HTTPError`, and the decision
in the transcript. -/
def proposePaymentIntent (order : PaymentIntent) (hex : KeySuffix)
    (token : Option ApprovalClaims) : Call Unit := do
  let decision ← (submit order hex token).recover fun _ => Prog.throw .gatewayUnreachable
  perform (.addDecision decision)

/-- `submit_approved_payment`; the decision is the latest one of the transcript. -/
def submitApprovedPayment (order : PaymentIntent) (token : Option ApprovalClaims) :
    Call RunStatus := do
  let hex ← perform .uuidHex
  proposePaymentIntent order hex token
  let decision ← perform .latestDecision
  pure (if decision = some .allow then .completed else .blocked)

/-- `approve_and_resume` from the grant on. -/
def resume (order : PaymentIntent) (approvalRequestId : ℕ) : Call Unit := do
  let token ← grantApproval approvalRequestId
  perform (.updateState token)
  let graph ← perform .invoke
  match graph with
  | .inl status => perform (.setStatus status)
  | .inr token => do
      let status ← submitApprovedPayment order token
      perform (.setStatus status)

/-- `approve_and_resume`. -/
def approveAndResume (order : PaymentIntent) : Call Unit := do
  let run ← perform .getRun
  match run with
  | none => Prog.throw .unknownRun
  | some status =>
      if status ≠ .awaitingApproval then Prog.throw .runNotAwaitingApproval
      else do
        let request ← perform .approvalRequestId
        match request with
        | none => Prog.throw .noApprovalRequest
        | some approvalRequestId => resume order approvalRequestId

/-! ## The machine -/

/-- The gateway and the record of one run, with the latest decision of its transcript; `sent` lists the payment requests of its calls. -/
structure World where
  gateway : Gateway.Config
  status : RunStatus := .awaitingApproval
  approvalRequestId : Option ℕ
  graphToken : Option ApprovalClaims := none
  lastDecision : Option Decision := some .requireApproval
  sent : List ℕ := []

/-- How an operation ends: it completes, the run is unknown, the graph has ended before, a value is
drawn, or the client fails while the request reaches the gateway or not. -/
inductive Choice where
  | ok
  | forgotten
  | ended (status : RunStatus)
  | hex (hex : KeySuffix)
  | credential (credential : Credential)
  | fault (arrived : Bool)

/-- The token of a grant that was answered. -/
def grantedToken? (c : Gateway.Config) (tid : ℕ) : Option ApprovalClaims :=
  match c.threads[tid]?.map Thread.prog with
  | some (.ret (.ok (.approval token))) => token
  | _ => none

/-- The decision of a request that was answered. -/
def decision? (c : Gateway.Config) (tid : ℕ) : Option Decision :=
  match c.threads[tid]?.map Thread.prog with
  | some (.ret (.ok (.decision response))) => some response.decision
  | some (.ret (.ok (.failClosed _))) => some .block
  | _ => none

/-- The world after a request reached the gateway. -/
def World.posted (R : Runtime) (w : World) (job : Job) : World :=
  { w with
    gateway := w.gateway.spawn (machine R) job
    sent := match job with
      | .paymentIntent .. => w.gateway.threads.length :: w.sent
      | _ => w.sent }

/-- One operation of a call. -/
def World.perform (R : Runtime) (w : World) : (op : CallOp) → Choice →
    Option (World × Except SimulatorError op.Val)
  | .getRun, .ok => some (w, .ok (some w.status))
  | .getRun, .forgotten => some (w, .ok none)
  | .approvalRequestId, .ok => some (w, .ok w.approvalRequestId)
  | .post job, .ok => some (w.posted R job, .ok w.gateway.threads.length)
  | .post job, .fault arrived => some (if arrived then w.posted R job else w, .error .httpError)
  | .awaitGrant tid, .ok => (grantedToken? w.gateway tid).map fun token => (w, .ok token)
  | .awaitGrant _, .fault _ => some (w, .error .httpError)
  | .updateState token, .ok => some ({ w with graphToken := some token }, .ok ())
  | .invoke, .ok => some (w, .ok (.inr w.graphToken))
  | .invoke, .ended status => some (w, .ok (.inl status))
  | .uuidHex, .hex hex => some (w, .ok hex)
  | .delegationToken, .credential credential => some (w, .ok credential)
  | .delegationToken, .fault _ => some (w, .error .httpError)
  | .awaitDecision tid, .ok => (decision? w.gateway tid).map fun decision => (w, .ok decision)
  | .awaitDecision _, .fault _ => some (w, .error .httpError)
  | .addDecision decision, .ok => some ({ w with lastDecision := some decision }, .ok ())
  | .latestDecision, .ok => some (w, .ok w.lastDecision)
  | .setStatus status, .ok => some ({ w with status }, .ok ())
  | _, _ => none

/-- The world after a step of the gateway; a step that is not possible changes nothing. -/
def World.gatewayStep (R : Runtime) (w : World) (l : Label Job Env Outcome) : World :=
  { w with gateway := ((machine R).step {} w.gateway l).getD w.gateway }

/-- The calls for a run beside the gateway. -/
def simulator (R : Runtime) (order : PaymentIntent) :
    Machine World Unit (Label Job Env Outcome) Choice CallOp CallOp.Val SimulatorError Unit where
  start _ := approveAndResume order
  perform := World.perform R
  environment := World.gatewayStep R

/-- Configurations of the calls. -/
abbrev Config := Machine.Config World Unit Choice CallOp CallOp.Val SimulatorError Unit

/-- Conditions on the steps of the calls. -/
abbrev Discipline :=
  Machine.Discipline World Unit (Label Job Env Outcome) Choice CallOp CallOp.Val SimulatorError Unit

end AgentPay.Simulator
