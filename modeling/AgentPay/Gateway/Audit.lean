import AgentPay.Gateway.Store

/-!
# The audit log

One event is appended under the lock of the chain: the head is read, the event is hashed onto it and
inserted. `recordEventSafe` is the append whose failure the caller does not see.
-/

set_option autoImplicit false

namespace AgentPay.Gateway

open AgentPay.Library

/-- The hash before the first event. -/
def genesisHash : String := String.ofList (List.replicate 64 '0')

/-- `head or GENESIS_HASH`. -/
def orGenesis : Option String → String
  | some hash => if hash = "" then genesisHash else hash
  | none => genesisHash

/-- The arguments of an append. -/
structure EventFields where
  eventType : String
  payload : Json := .obj []
  paymentAuthorizationId : Option ℕ := none
  userId : Option String := none
  agentId : Option String := none
  decision : Option String := none
  reasonCodes : List String := []
  risk : Json := .obj []
  policyVersion : Option String := none

/-- A text that may be missing. -/
def optionalStr : Option String → Json
  | some s => .str s
  | none => .null

/-- The wire text of a payment authorization id. -/
def paymentAuthorizationText (id : ℕ) : String := "pa_" ++ toString id

/-- The wire text of an event id. -/
def eventText (id : ℕ) : String := "evt_" ++ toString id

/-- The fields that are hashed. -/
def eventBody (R : Runtime) (eventId : ℕ) (createdAt : Time) (policyVersion : String)
    (f : EventFields) : Json :=
  .obj [
    ("event_id", .str (eventText eventId)),
    ("event_type", .str f.eventType),
    ("created_at", .str (R.isoTime createdAt)),
    ("payment_authorization_id", optionalStr (f.paymentAuthorizationId.map paymentAuthorizationText)),
    ("user_id", optionalStr f.userId),
    ("agent_id", optionalStr f.agentId),
    ("decision", optionalStr f.decision),
    ("reason_codes", .arr (f.reasonCodes.map .str)),
    ("risk", f.risk),
    ("policy_version", .str policyVersion),
    ("payload", f.payload)]

/-- The hash of an event body onto its predecessor. -/
def computeHash (R : Runtime) (body : Json) (prevHash : String) : String :=
  R.sha256 (Json.dumps (Json.compact R.floatRepr) body ++ prevHash)

/-- `record_event`: the id of the event and its hash. -/
def recordEvent (R : Runtime) (f : EventFields) : Py (ℕ × String) := do
  let eventId ← perform .uuid4
  let createdAt ← perform .now
  let policyVersion := match f.policyVersion with
    | some v => if v = "" then R.settings.policyVersion else v
    | none => R.settings.policyVersion
  withLock "audit_chain" 15 do
    let prev ← perform .auditHead
    let prevHash := orGenesis prev
    let eventHash := computeHash R (eventBody R eventId createdAt policyVersion f) prevHash
    perform (.insertAudit {
      eventId
      eventType := f.eventType
      paymentAuthorizationId := f.paymentAuthorizationId
      userId := f.userId
      agentId := f.agentId
      decision := f.decision
      reasonCodes := f.reasonCodes
      risk := f.risk
      policyVersion := some policyVersion
      payload := f.payload
      prevHash
      eventHash
      createdAt })
    pure (eventId, eventHash)

/-- The operations of an append. -/
def Op.Appends : Op → Prop
  | .uuid4 | .now | .sleep | .setNx .. | .deleteIfValue .. | .auditHead | .insertAudit _ => True
  | _ => False

theorem recordEvent_only (R : Runtime) (f : EventFields) : (recordEvent R f).Only Op.Appends := by
  refine Prog.Only.bind ((Prog.only_perform _ _).2 trivial) fun eventId => ?_
  refine Prog.Only.bind ((Prog.only_perform _ _).2 trivial) fun createdAt => ?_
  apply withLock_only (fun _ _ _ => trivial) trivial trivial fun _ _ => trivial
  refine Prog.Only.bind ((Prog.only_perform _ _).2 trivial) fun prev => ?_
  exact Prog.Only.bind ((Prog.only_perform _ _).2 trivial) fun _ => trivial

/-- `record_event_safe`: an `Exception` is swallowed. -/
def recordEventSafe (R : Runtime) (f : EventFields) : Py (Option ℕ × Option String) :=
  Prog.recover
    (do
      let (eventId, eventHash) ← recordEvent R f
      pure (some eventId, some eventHash))
    fun e => if e.isException then pure (none, none) else Prog.throw e

end AgentPay.Gateway
