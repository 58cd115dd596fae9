import AgentPay.Gateway.Events
import AgentPay.Library.LastWrite

/-!
# The pipeline view

The visualiser folds the stage events that reached it into one state per stage, in the order of their
numbers. The state is a family of registers: a status, an elapsed time and a latency for each stage,
and what each stage's detail has under each key. An event overwrites some of them.
-/

set_option autoImplicit false

namespace AgentPay.Web

open AgentPay.Library AgentPay.Gateway

/-- What the view shows of a stage; the status is `idle` until an event is applied. -/
@[ext]
structure StageState where
  status : Option StageStatus := none
  latencyMs : Option ℤ := none
  elapsedMs : Option ℤ := none
  detail : String → Option Json := fun _ => none

abbrev PipelineState := Stage → StageState

def emptyPipeline : PipelineState := fun _ => {}

/-- The body of the loop of `reducePipeline`. -/
def applyEvent (state : PipelineState) (event : StageEvent) : PipelineState :=
  Function.update state event.stage
    { status := some event.status
      elapsedMs := some event.elapsedMs
      latencyMs := event.latencyMs.or (state event.stage).latencyMs
      detail := fun key => (event.detail.lookup key).or ((state event.stage).detail key) }

/-- The events applied as they come. -/
def applyAll (events : List StageEvent) : PipelineState := events.foldl applyEvent emptyPipeline

def reducePipeline (events : List StageEvent) : PipelineState :=
  applyAll (sortBy StageEvent.seq events)

/-! ## Registers -/

inductive Register where
  | status (stage : Stage)
  | elapsed (stage : Stage)
  | latency (stage : Stage)
  | detail (stage : Stage) (key : String)

def Register.Value : Register → Type
  | status _ => StageStatus
  | elapsed _ => ℤ
  | latency _ => ℤ
  | detail _ _ => Json

def Register.stage : Register → Stage
  | status stage => stage
  | elapsed stage => stage
  | latency stage => stage
  | detail stage _ => stage

/-- What an event has for a register of its stage. -/
def valueFor (event : StageEvent) : (i : Register) → Option i.Value
  | .status _ => some event.status
  | .elapsed _ => some event.elapsedMs
  | .latency _ => event.latencyMs
  | .detail _ key => event.detail.lookup key

/-- What an event writes to a register. -/
def writes (event : StageEvent) (i : Register) : Option i.Value :=
  if event.stage = i.stage then valueFor event i else none

/-- What a register holds. -/
def PipelineState.read (state : PipelineState) : (i : Register) → Option i.Value
  | .status stage => (state stage).status
  | .elapsed stage => (state stage).elapsedMs
  | .latency stage => (state stage).latencyMs
  | .detail stage key => (state stage).detail key

theorem PipelineState.ext_read {state state' : PipelineState}
    (h : ∀ i, state.read i = state'.read i) : state = state' := by
  funext stage
  refine StageState.ext (h (.status stage)) (h (.latency stage)) (h (.elapsed stage)) ?_
  funext key
  exact h (.detail stage key)

theorem read_emptyPipeline (i : Register) : emptyPipeline.read i = none := by
  cases i with
  | status stage => rfl
  | elapsed stage => rfl
  | latency stage => rfl
  | detail stage key => rfl

theorem applyEvent_self (state : PipelineState) (event : StageEvent) :
    applyEvent state event event.stage =
      { status := some event.status
        elapsedMs := some event.elapsedMs
        latencyMs := event.latencyMs.or (state event.stage).latencyMs
        detail := fun key =>
          (event.detail.lookup key).or ((state event.stage).detail key) } :=
  Function.update_self ..

theorem applyEvent_of_ne (state : PipelineState) {event : StageEvent} {stage : Stage}
    (h : event.stage ≠ stage) : applyEvent state event stage = state stage :=
  Function.update_of_ne h.symm ..

/-- An event overwrites the registers it writes and no others. -/
theorem read_applyEvent (state : PipelineState) (event : StageEvent) (i : Register) :
    (applyEvent state event).read i = (writes event i).or (state.read i) := by
  rw [writes]
  split
  · next h =>
      have hself := applyEvent_self state event
      rw [h] at hself
      cases i with
      | status stage => exact congrArg StageState.status hself
      | elapsed stage => exact congrArg StageState.elapsedMs hself
      | latency stage => exact congrArg StageState.latencyMs hself
      | detail stage key => exact congrFun (congrArg StageState.detail hself) key
  · next h =>
      have hother := applyEvent_of_ne state h
      cases i with
      | status stage => exact congrArg StageState.status hother
      | elapsed stage => exact congrArg StageState.elapsedMs hother
      | latency stage => exact congrArg StageState.latencyMs hother
      | detail stage key => exact congrFun (congrArg StageState.detail hother) key

/-- The state holds what the events wrote last. -/
theorem read_applyAll (events : List StageEvent) (i : Register) :
    (applyAll events).read i = lastWrite writes events i := by
  have hfold : ∀ state : PipelineState, (events.foldl applyEvent state).read i =
      (lastWrite writes events i).or (state.read i) := by
    induction events with
    | nil => intro state; rfl
    | cons event events ih =>
        intro state
        rw [List.foldl_cons, ih, read_applyEvent, lastWrite, Option.or_assoc]
  rw [applyAll, hfold, read_emptyPipeline, Option.or_none]

/-- The view shows the state of the emission for every delivery exactly when the events with the
largest number agree with the last one. -/
theorem reducePipeline_eq_iff (events : List StageEvent) :
    (∀ delivered, Redelivered events delivered → reducePipeline delivered = applyAll events) ↔
      LargestAgree StageEvent.seq writes events := by
  rw [← restores_iff]
  refine forall_congr' fun delivered => imp_congr_right fun _ => ⟨fun h i => ?_, fun h => ?_⟩
  · rw [← read_applyAll, ← read_applyAll, ← h, reducePipeline]
  · refine PipelineState.ext_read fun i => ?_
    rw [reducePipeline, read_applyAll, read_applyAll, h]

end AgentPay.Web
