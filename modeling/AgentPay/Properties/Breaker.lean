import AgentPay.Analyzer.Llm

/-!
# The circuit breaker

The documented breaker is a half-open one: consecutive transport failures open it for a cooldown, the
first call after it is a trial, no other call is let through until the trial has completed, and the
trial opens or closes the breaker at once. The code keeps a deadline and a counter only, so once the
cooldown has elapsed it lets every call through, a trial's failure is one failure among others, and an
answer to any call that was under way ends the cooldown. In runs where nothing of that happens the two
let the same calls through.
-/

set_option autoImplicit false

namespace AgentPay.Properties

open AgentPay.Gateway AgentPay.Analyzer

/-! ## The documented breaker -/

inductive Phase where
  | closed
  | cooling (last : Time)
  | trial (call : ℕ)
deriving DecidableEq

/-- The documented breaker: its phase, and the transport failures since the last answer. -/
structure HalfOpen where
  phase : Phase := .closed
  failures : ℕ := 0
deriving DecidableEq

namespace HalfOpen

/-- A call that starts now reaches the network. -/
def admits (b : HalfOpen) (now : Time) : Bool :=
  match b.phase with
  | .closed => true
  | .cooling last => decide (last ≤ now)
  | .trial _ => false

/-- A trial is under way. -/
def inTrial (b : HalfOpen) : Bool :=
  match b.phase with
  | .trial _ => true
  | .closed | .cooling _ => false

/-- The cooldown is not over. -/
def isCooling (b : HalfOpen) (now : Time) : Bool :=
  match b.phase with
  | .cooling last => decide (now < last)
  | .closed | .trial _ => false

/-- The first call after the cooldown is the trial. -/
def start (b : HalfOpen) (call : ℕ) (now : Time) : HalfOpen :=
  match b.phase with
  | .cooling last => if last ≤ now then { b with phase := .trial call } else b
  | .closed | .trial _ => b

/-- A transport failure opens the breaker when it is that of the trial or the last of as many as the
threshold; an answer to the trial closes it, and any answer starts the count again. -/
def complete (S : CircuitSettings) (b : HalfOpen) (call : ℕ) (now : Time) (outcome : ApiOutcome) :
    HalfOpen :=
  if outcome.isTransportFailure then
    if b.phase = .trial call ∨ S.failures ≤ b.failures + 1 then
      { phase := .cooling (now + S.cooldown), failures := 0 }
    else { b with failures := b.failures + 1 }
  else if b.phase = .trial call then { phase := .closed, failures := 0 }
  else { b with failures := 0 }

end HalfOpen

/-! ## Runs -/

/-- A call starts, or a call under way completes. -/
inductive CallEvent where
  | start (now : Time)
  | complete (call : ℕ) (now : Time) (outcome : ApiOutcome)

/-- The breaker of the code beside the documented one, the calls on the network, and the number of
calls so far. -/
structure Ongoing where
  circuit : Circuit := {}
  documented : HalfOpen := {}
  inFlight : List ℕ := []
  calls : ℕ := 0
  now : Time := 0

namespace Ongoing

/-- What can happen next: time does not run back, and a call that completes is on the network. -/
def Possible (s : Ongoing) : CallEvent → Prop
  | .start now => s.now ≤ now
  | .complete call now _ => s.now ≤ now ∧ call ∈ s.inFlight

def step (S : CircuitSettings) (s : Ongoing) : CallEvent → Ongoing
  | .start now =>
      { s with
        documented := s.documented.start s.calls now
        inFlight := if s.circuit.isOpen now then s.inFlight else s.calls :: s.inFlight
        calls := s.calls + 1
        now := now }
  | .complete call now outcome =>
      { s with
        circuit := s.circuit.complete S now outcome
        documented := s.documented.complete S call now outcome
        inFlight := s.inFlight.erase call
        now := now }

/-- A call that starts now reaches the network exactly when the documented breaker admits it. -/
def Agrees (s : Ongoing) (now : Time) : Prop := s.circuit.isOpen now = !s.documented.admits now

/-- No call starts during a trial; a trial that fails brings the failures to the threshold; and no
call is answered during a cooldown. -/
def Regular (S : CircuitSettings) (s : Ongoing) : CallEvent → Prop
  | .start _ => s.documented.inTrial = false
  | .complete call now outcome =>
      if outcome.isTransportFailure then
        s.documented.phase = .trial call → S.failures ≤ s.documented.failures + 1
      else s.documented.isCooling now = false

end Ongoing

/-- The states of the runs whose steps all meet a condition. -/
inductive Reached (S : CircuitSettings) (condition : Ongoing → CallEvent → Prop) : Ongoing → Prop
  | initial : Reached S condition {}
  | step {s : Ongoing} {event : CallEvent} (h : Reached S condition s) (hevent : s.Possible event)
      (hcondition : condition s event) : Reached S condition (s.step S event)

/-! ## The simulation -/

/-- The code's deadline for a phase of the documented breaker: past, unless it is cooling. -/
def Phase.Deadline (openUntil now : Time) : Phase → Prop
  | .cooling last => openUntil = last ∨ openUntil ≤ now ∧ last ≤ now
  | .closed | .trial _ => openUntil ≤ now

/-- The deadline and the counter of the code follow the documented breaker. -/
structure Simulates (s : Ongoing) : Prop where
  failures : s.circuit.consecutiveFailures = s.documented.failures
  deadline : s.documented.phase.Deadline s.circuit.openUntil s.now

theorem Phase.Deadline.mono {openUntil now now' : Time} {phase : Phase}
    (h : phase.Deadline openUntil now) (hnow : now ≤ now') : phase.Deadline openUntil now' := by
  cases phase with
  | closed => exact le_trans h hnow
  | cooling last => exact h.imp_right fun h => ⟨h.1.trans hnow, h.2.trans hnow⟩
  | trial call => exact le_trans h hnow

/-- A deadline that is past suits every phase whose cooldown is over. -/
theorem HalfOpen.deadline_of_past {openUntil now : Time} {b : HalfOpen} (h : openUntil ≤ now)
    (hcooling : b.isCooling now = false) : b.phase.Deadline openUntil now := by
  rw [HalfOpen.isCooling] at hcooling
  cases hphase : b.phase with
  | closed => exact h
  | cooling last =>
      rw [hphase] at hcooling
      exact .inr ⟨h, not_lt.1 (of_decide_eq_false hcooling)⟩
  | trial call => exact h

theorem Simulates.start {S : CircuitSettings} {s : Ongoing} {now : Time} (h : Simulates s)
    (hnow : s.now ≤ now) : Simulates (s.step S (.start now)) := by
  obtain ⟨hfailures, hdeadline⟩ := h
  have hlater := hdeadline.mono hnow
  rw [Ongoing.step, HalfOpen.start]
  cases hphase : s.documented.phase with
  | closed => exact ⟨hfailures, hlater⟩
  | trial call => exact ⟨hfailures, hlater⟩
  | cooling last =>
      rw [hphase] at hlater
      by_cases hover : last ≤ now
      · -- the trial begins after the cooldown, when the deadline is past
        simp only [if_pos hover]
        refine ⟨hfailures, ?_⟩
        rcases hlater with heq | ⟨hpast, -⟩
        · exact heq.le.trans hover
        · exact hpast
      · simp only [if_neg hover]
        refine ⟨hfailures, ?_⟩
        rw [hphase]
        exact hlater

theorem Simulates.complete {S : CircuitSettings} (hS : 1 ≤ S.failures) {s : Ongoing} {call : ℕ}
    {now : Time} {outcome : ApiOutcome} (h : Simulates s) (hnow : s.now ≤ now)
    (hregular : s.Regular S (.complete call now outcome)) :
    Simulates (s.step S (.complete call now outcome)) := by
  obtain ⟨hfailures, hdeadline⟩ := h
  have hlater := hdeadline.mono hnow
  rw [Ongoing.Regular] at hregular
  rw [Ongoing.step, Circuit.complete, HalfOpen.complete]
  by_cases htransport : outcome.isTransportFailure = true
  · rw [if_pos htransport] at hregular
    rw [if_pos htransport, if_pos htransport, Circuit.recordTransportFailure]
    by_cases hopens : S.failures ≤ s.documented.failures + 1
    · rw [if_pos ⟨hS, by rwa [hfailures]⟩, if_pos (.inr hopens)]
      exact ⟨rfl, .inl rfl⟩
    · -- one failure more, which is not the trial's
      have hother : s.documented.phase ≠ .trial call := fun h => hopens (hregular h)
      rw [if_neg fun h => hopens (hfailures ▸ h.2), if_neg (not_or.2 ⟨hother, hopens⟩)]
      exact ⟨congrArg (· + 1) hfailures, hlater⟩
  · rw [if_neg htransport] at hregular
    rw [if_neg htransport, if_neg htransport, Circuit.recordSuccess]
    by_cases htrial : s.documented.phase = .trial call
    · rw [if_pos htrial]
      exact ⟨rfl, Nat.zero_le now⟩
    · rw [if_neg htrial]
      exact ⟨rfl, HalfOpen.deadline_of_past (Nat.zero_le now) hregular⟩

/-- Regular runs keep the simulation. -/
theorem simulates_of_reached {S : CircuitSettings} (hS : 1 ≤ S.failures) {s : Ongoing}
    (h : Reached S (Ongoing.Regular S) s) : Simulates s := by
  induction h with
  | initial => exact ⟨rfl, Nat.le_refl 0⟩
  | @step s event _ hevent hregular ih =>
      cases event with
      | start now => exact ih.start hevent
      | complete call now outcome => exact ih.complete hS hevent.1 hregular

theorem Simulates.agrees {s : Ongoing} {now : Time} (h : Simulates s) (hnow : s.now ≤ now)
    (htrial : s.documented.inTrial = false) : s.Agrees now := by
  have hdeadline := h.deadline.mono hnow
  rw [HalfOpen.inTrial] at htrial
  rw [Ongoing.Agrees, Circuit.isOpen, HalfOpen.admits]
  cases hphase : s.documented.phase with
  | closed =>
      rw [hphase] at hdeadline
      exact decide_eq_false (not_lt.2 hdeadline)
  | trial call =>
      rw [hphase] at htrial
      cases htrial
  | cooling last =>
      rw [hphase] at hdeadline
      rw [← decide_not, decide_eq_decide, not_le]
      rcases hdeadline with heq | ⟨hpast, hover⟩
      · rw [heq]
      · exact iff_of_false (not_lt.2 hpast) (not_lt.2 hover)

/-- **In every regular run the calls that reach the network are those the documented breaker
admits.** -/
theorem half_open_of_regular (S : CircuitSettings) (hS : 1 ≤ S.failures) (s : Ongoing)
    (h : Reached S (Ongoing.Regular S) s) (now : Time) (hstart : s.Possible (.start now))
    (hregular : s.Regular S (.start now)) : s.Agrees now :=
  (simulates_of_reached hS h).agrees hstart hregular

/-! ## Executed runs -/

instance (s : Ongoing) (event : CallEvent) : Decidable (s.Possible event) :=
  match event with
  | .start _ => inferInstanceAs (Decidable (_ ≤ _))
  | .complete .. => inferInstanceAs (Decidable (_ ∧ _))

instance (S : CircuitSettings) (s : Ongoing) (event : CallEvent) : Decidable (s.Regular S event) :=
  match event with
  | .start _ => inferInstanceAs (Decidable (_ = _))
  | .complete call now outcome => inferInstanceAs (Decidable (if outcome.isTransportFailure then
      s.documented.phase = .trial call → S.failures ≤ s.documented.failures + 1
    else s.documented.isCooling now = false))

/-- Every event of the run can happen and meets the condition. -/
def executable (S : CircuitSettings) (condition : Ongoing → CallEvent → Prop)
    [∀ s event, Decidable (condition s event)] : Ongoing → List CallEvent → Bool
  | _, [] => true
  | s, event :: events =>
      decide (s.Possible event ∧ condition s event) &&
        executable S condition (s.step S event) events

theorem reached_of_executable {S : CircuitSettings} {condition : Ongoing → CallEvent → Prop}
    [∀ s event, Decidable (condition s event)] {events : List CallEvent} {s : Ongoing}
    (h : Reached S condition s) (hrun : executable S condition s events = true) :
    Reached S condition (events.foldl (Ongoing.step S) s) := by
  induction events generalizing s with
  | nil => exact h
  | cons event events ih =>
      obtain ⟨hevent, hrest⟩ := Bool.and_eq_true_iff.1 hrun
      obtain ⟨hpossible, hcondition⟩ := of_decide_eq_true hevent
      exact ih (h.step hpossible hcondition) hrest

/-- Two failures open a breaker of threshold two for half a minute, while a third call is under
way. -/
def twoFailures : List CallEvent := [
  .start 0, .start 0, .start 0,
  .complete 0 (seconds 1) .timeout, .complete 1 (seconds 1) .timeout]

/-- The first call after the cooldown, at 31 seconds, and its failure a second later. -/
def trialCall : List CallEvent := twoFailures ++ [.start (seconds 31)]

def trialFailure : List CallEvent := trialCall ++ [.complete 3 (seconds 32) .timeout]

/-- The third call is answered during the cooldown. -/
def lateAnswer : List CallEvent := twoFailures ++ [.complete 2 (seconds 2) .unparseable]

/-- The first call after the cooldown goes through. -/
theorem half_open_of_regular_cooldown :
    (twoFailures.foldl (Ongoing.step ⟨2, seconds 30⟩) {}).Agrees (seconds 31) := by
  have hrun : executable ⟨2, seconds 30⟩ (Ongoing.Regular ⟨2, seconds 30⟩) {} twoFailures = true := by
    decide +kernel
  exact half_open_of_regular ⟨2, seconds 30⟩ (by decide) _ (reached_of_executable .initial hrun)
    (seconds 31) (by decide +kernel) (by decide +kernel)

/-- A run after which a call is let through that the documented breaker refuses. -/
def LetsThrough (S : CircuitSettings) (events : List CallEvent) (now : Time) : Prop :=
  Reached S (fun _ _ => True) (events.foldl (Ongoing.step S) {}) ∧
    (events.foldl (Ongoing.step S) {}).Possible (.start now) ∧
    (events.foldl (Ongoing.step S) {}).circuit.isOpen now = false ∧
    (events.foldl (Ongoing.step S) {}).documented.admits now = false

/-- A second call goes through during the trial, one goes through right after its failure, and one
goes through in the cooldown once a straggler was answered. -/
theorem breaker_lets_through :
    LetsThrough ⟨2, seconds 30⟩ trialCall (seconds 31) ∧
      LetsThrough ⟨2, seconds 30⟩ trialFailure (seconds 33) ∧
      LetsThrough ⟨2, seconds 30⟩ lateAnswer (seconds 3) ∧
      ¬ ∀ (S : CircuitSettings), 1 ≤ S.failures → ∀ s, Reached S (fun _ _ => True) s →
        ∀ now, s.Possible (.start now) → s.Agrees now := by
  have hduring : LetsThrough ⟨2, seconds 30⟩ trialCall (seconds 31) := by
    refine ⟨reached_of_executable .initial ?_, ?_, ?_, ?_⟩ <;> decide +kernel
  have hafter : LetsThrough ⟨2, seconds 30⟩ trialFailure (seconds 33) := by
    refine ⟨reached_of_executable .initial ?_, ?_, ?_, ?_⟩ <;> decide +kernel
  have hlate : LetsThrough ⟨2, seconds 30⟩ lateAnswer (seconds 3) := by
    refine ⟨reached_of_executable .initial ?_, ?_, ?_, ?_⟩ <;> decide +kernel
  refine ⟨hduring, hafter, hlate, fun hall => ?_⟩
  obtain ⟨hreached, hpossible, hopen, hadmits⟩ := hduring
  have hagrees := hall ⟨2, seconds 30⟩ (by decide) _ hreached _ hpossible
  rw [Ongoing.Agrees, hopen, hadmits] at hagrees
  cases hagrees

end AgentPay.Properties
