import AgentPay.Web.Pipeline

/-!
# The pipeline view and the order of delivery

Stage events are published by tasks that nothing orders, and the relay may send some of them again.
The view sorts what it got by the number of each event. Within one call the numbers are the order of
emission. Calls that share a request id number their events from one again, so of two events with one
number the view takes the one that arrived last.
-/

set_option autoImplicit false

namespace AgentPay.Properties

open AgentPay.Library AgentPay.Gateway AgentPay.Web

/-- The steps of a call that has the given place among the calls of the run. -/
def callSteps (call : ℕ) (t0 : ℚ) (readings : EmitterReadings) (course : Course) : List EmitterStep :=
  .receive t0 :: course.commands.map fun command => .perform call command readings

/-- A payment that waits for an approval, and is then submitted with it under the same id. -/
def approvedRun : List EmitterStep :=
  callSteps 0 0 ⟨fun _ => 0, fun _ => "", fun _ => false⟩
      (.decided "pa-1" .requireApproval true {}) ++
    callSteps 1 0 ⟨fun _ => 0, fun _ => "", fun _ => false⟩ (.decided "pa-2" .allow true {})

/-- **The view is that of the emission, for every delivery, exactly when the events with the largest
number agree with the last one.** A run of one call is such a run. -/
theorem view_of_every_delivery (requestId : String) (steps : List EmitterStep) :
    ((∀ delivered, Redelivered (emitted requestId [] steps) delivered →
        reducePipeline delivered = applyAll (emitted requestId [] steps)) ↔
      LargestAgree StageEvent.seq writes (emitted requestId [] steps)) ∧
    (callsOf steps ≤ 1 → ∀ delivered, Redelivered (emitted requestId [] steps) delivered →
      reducePipeline delivered = applyAll (emitted requestId [] steps)) := by
  have hiff := reducePipeline_eq_iff (emitted requestId [] steps)
  refine ⟨hiff, fun hcalls => hiff.2 ?_⟩
  apply largestAgree_of_increasing
  exact (increasing_of_single requestId (by rwa [List.length_nil, Nat.zero_add])).1

/-- The second call's events arrive before those of the first, and the view shows a payment that
still waits for its approval. -/
theorem late_first_call :
    Redelivered (emitted "req-1" [] approvedRun) ((emitted "req-1" [] approvedRun).rotate 14) ∧
      (applyAll (emitted "req-1" [] approvedRun) .pdp).status = some .passed ∧
      (reducePipeline ((emitted "req-1" [] approvedRun).rotate 14) .pdp).status = some .paused ∧
      ¬ ∀ (requestId : String) (steps : List EmitterStep) (delivered : List StageEvent),
        Redelivered (emitted requestId [] steps) delivered →
        reducePipeline delivered = applyAll (emitted requestId [] steps) := by
  have hdelivered : Redelivered (emitted "req-1" [] approvedRun)
      ((emitted "req-1" [] approvedRun).rotate 14) :=
    ⟨[], fun _ he => absurd he List.not_mem_nil, by
      rw [List.append_nil]
      exact List.rotate_perm _ _⟩
  have hemitted : (applyAll (emitted "req-1" [] approvedRun) .pdp).status = some .passed := rfl
  have hshown : (reducePipeline ((emitted "req-1" [] approvedRun).rotate 14) .pdp).status =
      some .paused := by decide +kernel
  refine ⟨hdelivered, hemitted, hshown, fun hall => ?_⟩
  rw [hall _ _ _ hdelivered, hemitted] at hshown
  cases hshown

end AgentPay.Properties
