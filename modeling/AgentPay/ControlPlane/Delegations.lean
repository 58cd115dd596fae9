import AgentPay.Gateway.Routes

/-!
# Delegations at the control plane

`upsert_policy`, `revoke_delegation` and `reinstate_delegation` as coroutines beside the gateway.
Each of them commits to the database first and writes the shared revocation set afterwards, and may
fail at either; the entry in the admin audit trail comes last, and its failure is logged.
-/

set_option autoImplicit false

namespace AgentPay.ControlPlane

open AgentPay.Library AgentPay.Library.Machine AgentPay.Gateway

/-- Exceptions of the endpoints: the 404 of an unknown delegation, an error of a store, and the
cancellation of the task. -/
inductive AdminExn where
  | unknownDelegation
  | storeError
  | cancelled
deriving DecidableEq

/-- Caught by `except Exception`. -/
def AdminExn.isException : AdminExn → Bool
  | .cancelled => false
  | _ => true

/-- The operations. -/
inductive AdminOp where
  | mergePolicy (policy : SpendingPolicy)
  | getPolicy (delegationId : String)
  | commitRevoked (delegationId : String) (revoked : Bool)
  | sadd (delegationId : String)
  | srem (delegationId : String)
  | insertAdminAudit (action target : String)

/-- The values the operations answer with. -/
abbrev AdminOp.Val : AdminOp → Type
  | getPolicy _ => Option SpendingPolicy
  | mergePolicy _ | commitRevoked .. | sadd _ | srem _ | insertAdminAudit .. => Unit

/-- A coroutine of the control plane. -/
abbrev AdminPy (α : Type) := Prog AdminOp AdminOp.Val AdminExn α

abbrev command (op : AdminOp) : AdminPy op.Val := Prog.perform op

/-- `record_admin_action`. -/
def recordAdminAction (action target : String) : AdminPy Unit :=
  (command (.insertAdminAudit action target)).recover fun e =>
    if e.isException then pure () else Prog.throw e

/-- `upsert_policy`. -/
def upsertPolicy (policy : SpendingPolicy) : AdminPy Unit := do
  command (.mergePolicy { policy with revoked := false })
  command (.srem policy.delegationId)
  recordAdminAction "policy.upsert" policy.delegationId

/-- `revoke_delegation`. -/
def revokeDelegation (delegationId : String) : AdminPy Unit := do
  let policy ← command (.getPolicy delegationId)
  match policy with
  | none => Prog.throw .unknownDelegation
  | some _ => do
      command (.commitRevoked delegationId true)
      command (.sadd delegationId)
      recordAdminAction "delegation.revoke" delegationId

/-- `reinstate_delegation`. -/
def reinstateDelegation (delegationId : String) : AdminPy Unit := do
  let policy ← command (.getPolicy delegationId)
  match policy with
  | none => pure ()
  | some _ => command (.commitRevoked delegationId false)
  command (.srem delegationId)
  recordAdminAction "delegation.reinstate" delegationId

/-! ## The machine -/

/-- A call of an endpoint. -/
inductive AdminJob where
  | upsert (policy : SpendingPolicy)
  | revoke (delegationId : String)
  | reinstate (delegationId : String)

/-- The program of a call. -/
def AdminJob.start : AdminJob → AdminPy Unit
  | upsert policy => upsertPolicy policy
  | revoke delegationId => revokeDelegation delegationId
  | reinstate delegationId => reinstateDelegation delegationId

/-- The gateway, whose database and revocation set the control plane shares, and the admin audit
trail, newest first. -/
structure AdminWorld where
  gateway : Gateway.Config
  adminAudit : List (String × String) := []

/-- How an operation ends. -/
inductive AdminOutcome where
  | ok
  | fault (e : AdminExn) (applied : Bool)

namespace AdminWorld

/-- A change of the world of the gateway. -/
def withWorld (w : AdminWorld) (f : World → World) : AdminWorld :=
  { w with gateway := { w.gateway with world := f w.gateway.world } }

/-- The commit of the flag in the row of a delegation, if there is one. -/
def commitFlag (delegationId : String) (revoked : Bool) (world : World) : World :=
  match world.policies.find? fun p => p.delegationId == delegationId with
  | some policy => world.environment (.upsertPolicy { policy with revoked := revoked })
  | none => world

/-- The effect of an operation. -/
def apply (w : AdminWorld) : AdminOp → AdminWorld
  | .mergePolicy policy => w.withWorld fun world => world.environment (.upsertPolicy policy)
  | .getPolicy _ => w
  | .commitRevoked delegationId revoked => w.withWorld (commitFlag delegationId revoked)
  | .sadd delegationId => w.withWorld fun world => world.environment (.revoke delegationId)
  | .srem delegationId => w.withWorld fun world => world.environment (.reinstate delegationId)
  | .insertAdminAudit action target => { w with adminAudit := (action, target) :: w.adminAudit }

/-- The answer of an operation that completes. -/
def value (w : AdminWorld) : (op : AdminOp) → op.Val
  | .getPolicy delegationId =>
      w.gateway.world.policies.find? fun p => p.delegationId == delegationId
  | .mergePolicy _ | .commitRevoked .. | .sadd _ | .srem _ | .insertAdminAudit .. => ()

/-- One operation under an outcome. -/
def perform (w : AdminWorld) (op : AdminOp) :
    AdminOutcome → Option (AdminWorld × Except AdminExn op.Val)
  | .ok => some (w.apply op, .ok (w.value op))
  | .fault e applied => some (if applied then w.apply op else w, .error e)

/-- A step of the gateway; a step that is not possible changes nothing. -/
def gatewayStep (R : Runtime) (w : AdminWorld) (l : Label Job Env Outcome) : AdminWorld :=
  { w with gateway := ((machine R).step {} w.gateway l).getD w.gateway }

end AdminWorld

/-- The control plane beside the gateway. -/
def administration (R : Runtime) : Machine AdminWorld AdminJob (Label Job Env Outcome) AdminOutcome
    AdminOp AdminOp.Val AdminExn Unit where
  start := AdminJob.start
  perform := AdminWorld.perform
  environment := AdminWorld.gatewayStep R

/-- Configurations of the control plane. -/
abbrev AdminConfig :=
  Machine.Config AdminWorld AdminJob AdminOutcome AdminOp AdminOp.Val AdminExn Unit

/-- Conditions on the steps of the control plane. -/
abbrev AdminDiscipline := Machine.Discipline AdminWorld AdminJob (Label Job Env Outcome)
  AdminOutcome AdminOp AdminOp.Val AdminExn Unit

end AgentPay.ControlPlane
