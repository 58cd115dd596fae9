import AgentPay.Gateway.World

/-!
# The shared store client

Locks and sliding windows over the commands of the store. Acquiring a lock is fifty attempts with a
pause after each; a lock that cannot be acquired raises `TimeoutError`. A lock is a lease: nothing
extends it while its holder runs.
-/

set_option autoImplicit false

namespace AgentPay.Gateway

open AgentPay.Library

/-- The attempts to take a lock before giving up. -/
def lockAttempts : ℕ := 50

/-- The store key of a lock. -/
def lockKey (name : String) : String := "agentpay:lock:" ++ name

/-- `DistributedLock.__aenter__` with a number of attempts left. -/
def acquire (name : String) (token ttl : ℕ) : ℕ → Py Unit
  | 0 => Prog.throw .timeoutError
  | attempts + 1 => do
      let taken ← perform (.setNx (lockKey name) token ttl)
      if taken then pure ()
      else do
        perform .sleep
        acquire name token ttl attempts

/-- `DistributedLock.__aexit__` of an acquired lock. -/
def release (name : String) (token : ℕ) : Py Unit := do
  let _ ← perform (.deleteIfValue (lockKey name) token)
  pure ()

/-- `async with DistributedLock(name, ttl): body`. -/
def withLock {α : Type} (name : String) (ttl : ℕ) (body : Py α) : Py α := do
  let token ← perform .uuid4
  acquire name token ttl lockAttempts
  body.ensure (release name token)

section Footprint

variable {A : Op → Prop} (hset : ∀ key token ttl, A (.setNx key token ttl)) (hsleep : A .sleep)
include hset hsleep

theorem acquire_only (name : String) (token ttl n : ℕ) : (acquire name token ttl n).Only A := by
  induction n with
  | zero => trivial
  | succ n ih =>
      refine Prog.Only.bind ((Prog.only_perform _ _).2 (hset _ _ _)) fun taken => ?_
      split
      · trivial
      · exact Prog.Only.bind ((Prog.only_perform _ _).2 hsleep) fun _ => ih

/-- A block under a lock adds the operations of the lock. -/
theorem withLock_only (hdraw : A .uuid4) (hdelete : ∀ key token, A (.deleteIfValue key token))
    {α : Type} (name : String) (ttl : ℕ) {body : Py α} (h : body.Only A) :
    (withLock name ttl body).Only A :=
  Prog.Only.bind ((Prog.only_perform _ _).2 hdraw) fun _ =>
    Prog.Only.bind (acquire_only hset hsleep _ _ _ _) fun _ =>
      h.ensure (Prog.Only.bind ((Prog.only_perform _ _).2 (hdelete _ _)) fun _ => trivial)

end Footprint

/-- `zcount_window`. -/
def zcountWindow (key : String) (window : ℕ) : Py ℕ := do
  let now ← perform .now
  perform (.zcount key (now - seconds window))

/-- `zadd_window`. -/
def zaddWindow (key : String) (window : ℕ) : Py ℕ := do
  let now ← perform .now
  let member ← perform .uuid4
  perform (.zadd key window now member)

end AgentPay.Gateway
