import AgentPay.Gateway.Schemas

/-!
# Pipeline stage events

Each call of the gateway makes an emitter of its own, which numbers the stage events it publishes.
Calls that share an `X-Request-Id` publish under one request id, each from its own first number. What
the clocks show, and whether an event can be published at all, is given for each command.
-/

set_option autoImplicit false

namespace AgentPay.Gateway

open AgentPay.Library

inductive Stage where
  | identity
  | canonical
  | analyzer
  | risk
  | pdp
  | authorization
  | audit
deriving DecidableEq

inductive StageStatus where
  | started
  | passed
  | blocked
  | paused
  | failed
  | skipped
deriving DecidableEq

/-- `STAGE_ORDER`. -/
def stageOrder : List Stage :=
  [.identity, .canonical, .analyzer, .risk, .pdp, .authorization, .audit]

/-- The members of a detail, with distinct keys. -/
abbrev Detail := List (String × Json)

/-- A stage event as it is published. -/
structure StageEvent where
  seq : ℕ
  requestId : String
  paymentAuthorizationId : String
  stage : Stage
  status : StageStatus
  latencyMs : Option ℤ
  elapsedMs : ℤ
  recordedAt : String
  detail : Detail

/-- `PipelineEmitter`. -/
structure PipelineEmitter where
  requestId : String
  paymentAuthorizationId : String := ""
  stageStarted : List (Stage × ℚ) := []
  t0 : ℚ
  seq : ℕ := 0

/-- What a command finds: the readings of `perf_counter` and of the wall clock in their order, and
which of its events can be neither serialised nor scheduled. -/
structure EmitterReadings where
  perf : ℕ → ℚ
  wall : ℕ → String
  dropped : ℕ → Bool := fun _ => false

namespace PipelineEmitter

/-- `int(seconds * 1000)`. -/
def millis (seconds : ℚ) : ℤ := (seconds * 1000).num.tdiv (seconds * 1000).den

/-- The event `_publish` makes of the next number. -/
def event (e : PipelineEmitter) (stage : Stage) (status : StageStatus) (detail : Detail)
    (latencyMs : Option ℤ) (perf : ℚ) (wall : String) : StageEvent where
  seq := e.seq + 1
  requestId := e.requestId
  paymentAuthorizationId := e.paymentAuthorizationId
  stage := stage
  status := status
  latencyMs := latencyMs
  elapsedMs := millis (perf - e.t0)
  recordedAt := wall
  detail := detail

/-- `_publish`; a dropped event has taken its number. -/
def publish (e : PipelineEmitter) (stage : Stage) (status : StageStatus) (detail : Detail)
    (latencyMs : Option ℤ) (perf : ℚ) (wall : String) (dropped : Bool) :
    PipelineEmitter × List StageEvent :=
  ({ e with seq := e.seq + 1 },
    if dropped then [] else [e.event stage status detail latencyMs perf wall])

/-- `start`. -/
def start (e : PipelineEmitter) (stage : Stage) (detail : Detail) (r : EmitterReadings) :
    PipelineEmitter × List StageEvent :=
  let e := { e with stageStarted := (stage, r.perf 0) :: e.stageStarted }
  e.publish stage .started detail none (r.perf 1) (r.wall 0) (r.dropped 0)

/-- The latency of a stage; a start at the reading zero counts as none. -/
def latency (e : PipelineEmitter) (stage : Stage) (now : ℚ) : Option ℤ :=
  ((e.stageStarted.lookup stage).filter fun t => decide (t ≠ 0)).map fun t => millis (now - t)

/-- `finish`. -/
def finish (e : PipelineEmitter) (stage : Stage) (status : StageStatus) (detail : Detail)
    (r : EmitterReadings) : PipelineEmitter × List StageEvent :=
  e.publish stage status detail (e.latency stage (r.perf 0)) (r.perf 1) (r.wall 0) (r.dropped 0)

/-- The loop of `skip_remaining` from its `n`-th stage. -/
def skipAll (e : PipelineEmitter) (reasonCodes : List String) (r : EmitterReadings) :
    ℕ → List Stage → PipelineEmitter × List StageEvent
  | _, [] => (e, [])
  | n, stage :: stages =>
      let published := e.publish stage .skipped
        [("reason_codes", .arr (reasonCodes.map .str)), ("never_reached", .bool true)] none
        (r.perf n) (r.wall n) (r.dropped n)
      let rest := published.1.skipAll reasonCodes r (n + 1) stages
      (rest.1, published.2 ++ rest.2)

/-- `skip_remaining`. -/
def skipRemaining (e : PipelineEmitter) (after : Stage) (reasonCodes : List String)
    (r : EmitterReadings) : PipelineEmitter × List StageEvent :=
  e.skipAll reasonCodes r 0 (stageOrder.drop (stageOrder.idxOf after + 1))

end PipelineEmitter

/-! ## Calls -/

/-- What a call tells its emitter. -/
inductive EmitterCommand where
  | start (stage : Stage) (detail : Detail)
  | finish (stage : Stage) (status : StageStatus) (detail : Detail)
  | skipRemaining (after : Stage) (reasonCodes : List String)
  | authorization (paymentAuthorizationId : String)

/-- A command and its events. -/
def PipelineEmitter.perform (e : PipelineEmitter) (r : EmitterReadings) :
    EmitterCommand → PipelineEmitter × List StageEvent
  | .start stage detail => e.start stage detail r
  | .finish stage status detail => e.finish stage status detail r
  | .skipRemaining after reasonCodes => e.skipRemaining after reasonCodes r
  | .authorization id => ({ e with paymentAuthorizationId := id }, [])

/-- The details of the stages of a request that is decided. -/
structure StageDetails where
  identity : Detail := []
  canonical : Detail := []
  analyzer : Detail := []
  risk : Detail := []
  pdp : Detail := []
  authorization : Detail := []
  audit : Detail := []

/-- How a payment request goes through the stages: refused for its identity or its rate, left
waiting for a lock, replayed, or decided. -/
inductive Course where
  | refused (reasonCode : String)
  | limited (identity : Detail) (reasonCode scope : String) (limit : ℤ)
  | inFlight (paymentAuthorizationId : String) (details : StageDetails)
  | replayed (paymentAuthorizationId idempotencyKey : String) (details : StageDetails)
  | decided (paymentAuthorizationId : String) (decision : Decision) (recorded : Bool)
      (details : StageDetails)

/-- The stages up to the locks. -/
def openingCommands (paymentAuthorizationId : String) (details : StageDetails) :
    List EmitterCommand := [
  .start .identity [],
  .finish .identity .passed details.identity,
  .start .canonical [],
  .authorization paymentAuthorizationId,
  .finish .canonical .passed details.canonical]

/-- The status of the policy stage under a decision. -/
def pdpStatus : Decision → StageStatus
  | .allow => .passed
  | .requireApproval => .paused
  | .block => .blocked

/-- The status of the authorization stage under a decision. -/
def authorizationStatus : Decision → StageStatus
  | .allow => .passed
  | .requireApproval => .paused
  | .block => .skipped

/-- What `create_payment_intent` and `_run_pipeline` tell the emitter. -/
def Course.commands : Course → List EmitterCommand
  | refused reasonCode => [
      .start .identity [],
      .finish .identity .blocked
        [("reason_codes", .arr [.str "INVALID_IDENTITY", .str reasonCode])],
      .skipRemaining .identity ["INVALID_IDENTITY", reasonCode]]
  | limited identity reasonCode scope limit => [
      .start .identity [],
      .finish .identity .passed identity,
      .finish .identity .blocked [("reason_codes", .arr [.str reasonCode]), ("scope", .str scope),
        ("limit", .int limit)],
      .skipRemaining .identity [reasonCode]]
  | inFlight id details => openingCommands id details
  | replayed id idempotencyKey details => openingCommands id details ++ [
      .finish .canonical .passed [("idempotent_replay", .bool true),
        ("idempotency_key", .str idempotencyKey)],
      .skipRemaining .canonical ["IDEMPOTENT_REPLAY"]]
  | decided id decision recorded details => openingCommands id details ++ [
      .start .analyzer [],
      .finish .analyzer .passed details.analyzer,
      .start .risk [],
      .finish .risk .passed details.risk,
      .start .pdp [],
      .finish .pdp (pdpStatus decision) details.pdp,
      .start .authorization [],
      .finish .authorization (authorizationStatus decision) details.authorization,
      .start .audit [],
      .finish .audit (if recorded then .passed else .failed) details.audit]

/-- A step of the calls under one request id: a call arrives, or one of them gives its emitter a
command. -/
inductive EmitterStep where
  | receive (t0 : ℚ)
  | perform (call : ℕ) (command : EmitterCommand) (readings : EmitterReadings)

/-- The events of the calls under one request id, in the order of their emission. -/
def emitted (requestId : String) : List PipelineEmitter → List EmitterStep → List StageEvent
  | _, [] => []
  | emitters, .receive t0 :: steps => emitted requestId (emitters ++ [{ requestId, t0 }]) steps
  | emitters, .perform call command readings :: steps =>
      match emitters[call]? with
      | none => emitted requestId emitters steps
      | some e =>
          let performed := e.perform readings command
          performed.2 ++ emitted requestId (emitters.set call performed.1) steps

/-- The calls that arrive. -/
def callsOf (steps : List EmitterStep) : ℕ := steps.countP fun
  | .receive _ => true
  | .perform .. => false

/-! ## Numbering -/

/-- The events have increasing numbers after that of the first emitter, up to that of the second. -/
structure Numbered (e e' : PipelineEmitter) (events : List StageEvent) : Prop where
  grows : e.seq ≤ e'.seq
  increasing : events.Pairwise fun a b => a.seq < b.seq
  bounds : ∀ a ∈ events, e.seq < a.seq ∧ a.seq ≤ e'.seq

theorem Numbered.append {e e' e'' : PipelineEmitter} {events events' : List StageEvent}
    (h : Numbered e e' events) (h' : Numbered e' e'' events') :
    Numbered e e'' (events ++ events') where
  grows := h.grows.trans h'.grows
  increasing := List.pairwise_append.2 ⟨h.increasing, h'.increasing, fun a ha b hb =>
    (h.bounds a ha).2.trans_lt (h'.bounds b hb).1⟩
  bounds a ha := by
    rcases List.mem_append.1 ha with ha | ha
    · exact ⟨(h.bounds a ha).1, (h.bounds a ha).2.trans h'.grows⟩
    · exact ⟨h.grows.trans_lt (h'.bounds a ha).1, (h'.bounds a ha).2⟩

theorem Numbered.none {e e' : PipelineEmitter} (h : e.seq ≤ e'.seq) : Numbered e e' [] :=
  ⟨h, List.Pairwise.nil, fun _ ha => absurd ha List.not_mem_nil⟩

theorem numbered_publish (e₀ e : PipelineEmitter) (heq : e₀.seq = e.seq) (stage : Stage)
    (status : StageStatus) (detail : Detail) (latencyMs : Option ℤ) (perf : ℚ) (wall : String)
    (dropped : Bool) :
    Numbered e₀ (e.publish stage status detail latencyMs perf wall dropped).1
      (e.publish stage status detail latencyMs perf wall dropped).2 := by
  have hgrows : e₀.seq ≤ e.seq + 1 := heq.le.trans (Nat.le_succ _)
  cases dropped with
  | true => exact Numbered.none hgrows
  | false =>
      refine ⟨hgrows, List.pairwise_singleton _ _, fun a ha => ?_⟩
      rw [List.mem_singleton.1 ha, heq]
      exact ⟨Nat.lt_succ_self _, le_rfl⟩

theorem numbered_skipAll (e : PipelineEmitter) (reasonCodes : List String) (r : EmitterReadings) (n : ℕ)
    (stages : List Stage) :
    Numbered e (e.skipAll reasonCodes r n stages).1 (e.skipAll reasonCodes r n stages).2 := by
  induction stages generalizing e n with
  | nil => exact Numbered.none le_rfl
  | cons stage stages ih => exact (numbered_publish e e rfl _ _ _ _ _ _ _).append (ih _ _)

/-- A command numbers its events on. -/
theorem numbered_perform (e : PipelineEmitter) (r : EmitterReadings) (command : EmitterCommand) :
    Numbered e (e.perform r command).1 (e.perform r command).2 := by
  cases command with
  | start stage detail =>
      exact numbered_publish e { e with stageStarted := (stage, r.perf 0) :: e.stageStarted } rfl
        _ _ _ _ _ _ _
  | finish stage status detail => exact numbered_publish e _ rfl _ _ _ _ _ _ _
  | skipRemaining after reasonCodes => exact numbered_skipAll e reasonCodes r 0 _
  | authorization id => exact Numbered.none le_rfl

/-- A single call numbers its events in the order of their emission. -/
theorem increasing_of_single (requestId : String) {emitters : List PipelineEmitter}
    {steps : List EmitterStep} (h : emitters.length + callsOf steps ≤ 1) :
    (emitted requestId emitters steps).Pairwise (fun a b => a.seq < b.seq) ∧
      ∀ e ∈ emitters, ∀ a ∈ emitted requestId emitters steps, e.seq < a.seq := by
  induction steps generalizing emitters with
  | nil => exact ⟨List.Pairwise.nil, fun _ _ _ ha => absurd ha List.not_mem_nil⟩
  | cons step steps ih =>
      cases step with
      | receive t0 =>
          rw [callsOf, List.countP_cons_of_pos rfl, ← callsOf] at h
          have hempty : emitters = [] := List.eq_nil_of_length_eq_zero (by omega)
          subst hempty
          refine ⟨(@ih [{ requestId, t0 }] ?_).1, fun _ he => absurd he List.not_mem_nil⟩
          rw [List.length_singleton]
          rw [List.length_nil] at h
          omega
      | perform call command readings =>
          rw [callsOf, List.countP_cons_of_neg Bool.false_ne_true, ← callsOf] at h
          rw [emitted]
          cases hcall : emitters[call]? with
          | none => exact ih h
          | some e =>
              obtain ⟨hlt, he⟩ := List.getElem?_eq_some_iff.1 hcall
              -- there is one emitter, so the rest of the run goes on from its number
              obtain ⟨e₀, rfl⟩ : ∃ e₀, emitters = [e₀] := List.length_eq_one_iff.1 (by omega)
              obtain rfl : call = 0 := by simpa using hlt
              obtain rfl : e₀ = e := he
              have hnumbered := numbered_perform e₀ readings command
              obtain ⟨hincreasing, hlater⟩ := @ih [(e₀.perform readings command).1]
                (by rw [List.length_singleton] at h ⊢; exact h)
              have hlater := hlater _ (List.mem_singleton.2 rfl)
              refine ⟨List.pairwise_append.2 ⟨hnumbered.increasing, hincreasing, fun a ha b hb => ?_⟩,
                fun e he a ha => ?_⟩
              · exact (hnumbered.bounds a ha).2.trans_lt (hlater b hb)
              · rw [List.mem_singleton.1 he]
                rcases List.mem_append.1 ha with ha | ha
                · exact (hnumbered.bounds a ha).1
                · exact hnumbered.grows.trans_lt (hlater a ha)

end AgentPay.Gateway
