import AgentPay.Gateway.Config
import AgentPay.Library.Json

/-!
# The event relay

The pump hands every event to the hub, which keeps the latest ones for replay and puts the event into
the queue of each subscriber that wants it. `_serve` is the coroutine of one client; it suspends while
a frame is being sent and at an empty queue, and whatever happens between two suspensions happens in
one step. The hub's lock is held over no suspension, so adding, removing and fanning out are steps
too.

Events are told apart by their number in the order of fan-out. What a client was offered, what its
queue took, and what the replay buffer held for it when it joined are no part of the program; they are
the history of the client.
-/

set_option autoImplicit false

namespace AgentPay.Relay

open AgentPay.Library AgentPay.Gateway

/-- The configured sizes; a queue whose size is not positive is unbounded. -/
structure RelaySettings where
  clientQueueSize : ℤ := 256
  replayBufferSize : ℤ := 500

/-- An event as it was parsed, with its number. -/
structure Numbered where
  number : ℕ
  fields : List (String × Json)

/-- `Subscriber`. -/
structure Subscriber where
  queue : List Numbered := []
  requestId : Option String := none
  dropped : ℕ := 0

/-- `Subscriber.wants`. -/
def Subscriber.wants (s : Subscriber) (event : List (String × Json)) : Bool :=
  match s.requestId with
  | none => true
  | some requestId =>
      match Json.field? "request_id" event with
      | some (.str text) => decide (text = requestId)
      | _ => false

/-- `put_nowait` raises `QueueFull`. -/
def Subscriber.full (settings : RelaySettings) (s : Subscriber) : Bool :=
  decide (0 < settings.clientQueueSize) && decide (settings.clientQueueSize ≤ s.queue.length)

/-- The body of the loop of `_fan_out`. -/
def Subscriber.put (settings : RelaySettings) (s : Subscriber) (event : Numbered) : Subscriber :=
  if s.full settings then { s with dropped := s.dropped + 1 }
  else { s with queue := s.queue ++ [event] }

/-- A frame sent to a client. -/
inductive Frame where
  | hello (requestId : Option String)
  | stage (replayed : Bool) (event : Numbered)
  | dropped (count : ℕ)

/-- Where `_serve` is suspended: while the hello frame, a replayed event (with those that follow), a live
event or a dropped frame is being sent, or at the queue; or it has ended. -/
inductive ServePhase where
  | hello
  | replaying (rest : List Numbered)
  | waiting
  | live
  | announcing
  | closed

/-- `_serve` with its subscriber and the frames it sent, the one being sent included. The last three
fields are the history of the client. -/
structure Client where
  subscriber : Subscriber
  phase : ServePhase := .hello
  sent : List Frame
  buffered : List Numbered := []
  offered : List Numbered := []
  accepted : List Numbered := []

/-- `Hub`, with the clients that connected to it. -/
structure Hub where
  eventsSeen : ℕ := 0
  recent : List Numbered := []
  clients : List Client := []

/-- `Hub.replay`. -/
def Hub.replay (hub : Hub) (s : Subscriber) : List Numbered :=
  hub.recent.filter fun event => s.wants event.fields

/-! ## Steps -/

/-- The two endpoints. -/
inductive Endpoint where
  | transactions (requestId : String)
  | live

/-- The request id `_serve` is given. -/
def Endpoint.requestId : Endpoint → Option String
  | transactions requestId => some (firstChars 128 requestId)
  | live => none

/-- `_serve` up to its first suspension after `hub.add`. -/
def Hub.connect (hub : Hub) (endpoint : Endpoint) : Client :=
  let subscriber : Subscriber := { requestId := endpoint.requestId }
  { subscriber, sent := [.hello endpoint.requestId], buffered := hub.replay subscriber }

/-- An event that is fanned out comes to a client. -/
def Client.receive (settings : RelaySettings) (client : Client) (event : Numbered) : Client :=
  match client.phase with
  | .closed => client
  | _ =>
      if client.subscriber.wants event.fields then { client with
        subscriber := client.subscriber.put settings event
        offered := client.offered ++ [event]
        accepted := if client.subscriber.full settings then client.accepted
          else client.accepted ++ [event] }
      else client

/-- The loop over the events to be replayed. -/
def Client.replayFrom (client : Client) : List Numbered → Client
  | [] => { client with phase := .waiting }
  | event :: rest => { client with
      phase := .replaying rest
      sent := client.sent ++ [.stage true event] }

/-- `_serve` from one suspension to the next; at an empty queue it stays. -/
def Client.proceed (hub : Hub) (client : Client) : Client :=
  match client.phase with
  | .hello => client.replayFrom (hub.replay client.subscriber)
  | .replaying rest => client.replayFrom rest
  | .waiting =>
      match client.subscriber.queue with
      | [] => client
      | event :: queue => { client with
          phase := .live
          subscriber := { client.subscriber with queue }
          sent := client.sent ++ [.stage false event] }
  | .live =>
      if client.subscriber.dropped = 0 then { client with phase := .waiting }
      else { client with
        phase := .announcing
        sent := client.sent ++ [.dropped client.subscriber.dropped] }
  | .announcing => { client with
      phase := .waiting
      subscriber := { client.subscriber with dropped := 0 } }
  | .closed => client

/-- `_serve` ends: its connection fails, or it is cancelled. -/
def Client.close (client : Client) : Client := { client with phase := .closed }

/-- `_fan_out`. -/
def Hub.fanOut (settings : RelaySettings) (hub : Hub) (fields : List (String × Json)) : Hub :=
  let event : Numbered := ⟨hub.eventsSeen + 1, fields⟩
  let recent := hub.recent ++ [event]
  { eventsSeen := hub.eventsSeen + 1
    recent := recent.drop (recent.length - settings.replayBufferSize).toNat
    clients := hub.clients.map fun client => client.receive settings event }

/-- A step of the relay. -/
inductive RelayStep where
  | connect (endpoint : Endpoint)
  | fanOut (fields : List (String × Json))
  | proceed (client : ℕ)
  | close (client : ℕ)

/-- The hub after a step. -/
def Hub.step (settings : RelaySettings) (hub : Hub) : RelayStep → Hub
  | .connect endpoint => { hub with clients := hub.clients ++ [hub.connect endpoint] }
  | .fanOut fields => hub.fanOut settings fields
  | .proceed i => { hub with clients := hub.clients.modify i (Client.proceed hub) }
  | .close i => { hub with clients := hub.clients.modify i Client.close }

/-- The hub after a run. -/
def Hub.run (settings : RelaySettings) (steps : List RelayStep) : Hub :=
  steps.foldl (Hub.step settings) {}

section Steps

variable {settings : RelaySettings}

@[simp] theorem run_nil : Hub.run settings [] = {} := rfl

@[simp] theorem run_concat (steps : List RelayStep) (step : RelayStep) :
    Hub.run settings (steps ++ [step]) = (Hub.run settings steps).step settings step := by
  rw [Hub.run, List.foldl_append]
  rfl

/-- An open client receives what it wants. -/
theorem receive_of_wants {client : Client} {event : Numbered} (hopen : client.phase ≠ .closed)
    (hwants : client.subscriber.wants event.fields = true) :
    client.receive settings event = { client with
      subscriber := client.subscriber.put settings event
      offered := client.offered ++ [event]
      accepted := if client.subscriber.full settings then client.accepted
        else client.accepted ++ [event] } := by
  rw [Client.receive]
  split
  case h_1 hclosed => exact absurd hclosed hopen
  case h_2 => rw [if_pos hwants]

/-- An event the client does not want, or that comes after its end, leaves it. -/
theorem receive_of_not {client : Client} {event : Numbered}
    (h : client.phase = .closed ∨ client.subscriber.wants event.fields = false) :
    client.receive settings event = client := by
  rw [Client.receive]
  split
  case h_1 => rfl
  case h_2 hopen =>
      rw [if_neg (by rw [h.resolve_left hopen]; exact Bool.false_ne_true)]

/-- What a step does to one client. -/
inductive Happens (settings : RelaySettings) (hub : Hub) (i : ℕ) : RelayStep → Client → Client → Prop
  | receive (client : Client) (fields : List (String × Json)) :
      Happens settings hub i (.fanOut fields) client
        (client.receive settings ⟨hub.eventsSeen + 1, fields⟩)
  | proceed (client : Client) : Happens settings hub i (.proceed i) client (client.proceed hub)
  | close (client : Client) : Happens settings hub i (.close i) client client.close
  | connectOther (client : Client) (endpoint : Endpoint) :
      Happens settings hub i (.connect endpoint) client client
  | proceedOther (client : Client) {j : ℕ} (h : j ≠ i) :
      Happens settings hub i (.proceed j) client client
  | closeOther (client : Client) {j : ℕ} (h : j ≠ i) :
      Happens settings hub i (.close j) client client

/-- A client after a step was connected by it, or comes from a client before it. -/
theorem client_cases {hub : Hub} {step : RelayStep} {i : ℕ} {client : Client}
    (h : (hub.step settings step).clients[i]? = some client) :
    (∃ endpoint, step = .connect endpoint ∧ i = hub.clients.length ∧
      client = hub.connect endpoint) ∨
    ∃ before, hub.clients[i]? = some before ∧ Happens settings hub i step before client := by
  cases step with
  | connect endpoint =>
      rw [Hub.step] at h
      rcases Nat.lt_trichotomy i hub.clients.length with hlt | rfl | hlt
      · rw [List.getElem?_append_left hlt] at h
        exact .inr ⟨client, h, .connectOther client endpoint⟩
      · rw [List.getElem?_append_right le_rfl, Nat.sub_self] at h
        exact .inl ⟨endpoint, rfl, rfl, (Option.some.inj h).symm⟩
      · rw [List.getElem?_eq_none (by simp; omega)] at h
        cases h
  | fanOut fields =>
      rw [Hub.step, Hub.fanOut, List.getElem?_map] at h
      obtain ⟨before, hbefore, rfl⟩ := Option.map_eq_some_iff.1 h
      exact .inr ⟨before, hbefore, .receive before fields⟩
  | proceed j =>
      rw [Hub.step, List.getElem?_modify] at h
      obtain ⟨before, hbefore, heq⟩ := Option.map_eq_some_iff.1 h
      refine .inr ⟨before, hbefore, ?_⟩
      by_cases hj : j = i
      · subst hj
        rw [← heq, if_pos rfl]
        exact .proceed before
      · rw [← heq, if_neg hj]
        exact .proceedOther before hj
  | close j =>
      rw [Hub.step, List.getElem?_modify] at h
      obtain ⟨before, hbefore, heq⟩ := Option.map_eq_some_iff.1 h
      refine .inr ⟨before, hbefore, ?_⟩
      by_cases hj : j = i
      · subst hj
        rw [← heq, if_pos rfl]
        exact .close before
      · rw [← heq, if_neg hj]
        exact .closeOther before hj

end Steps

/-! ## Runs -/

/-- Every step of the run meets a condition on the hub before it. -/
def Always (settings : RelaySettings) (P : Hub → RelayStep → Prop) (steps : List RelayStep) : Prop :=
  ∀ before step after, steps = before ++ step :: after → P (Hub.run settings before) step

section Runs

variable {settings : RelaySettings} {P : Hub → RelayStep → Prop} {steps : List RelayStep}

theorem always_nil : Always settings P [] := by
  intro before step after h
  exact absurd h.symm (List.append_ne_nil_of_right_ne_nil _ (List.cons_ne_nil _ _))

theorem always_concat {step : RelayStep} : Always settings P (steps ++ [step]) ↔
    Always settings P steps ∧ P (Hub.run settings steps) step := by
  constructor
  · intro h
    refine ⟨fun before s after heq => ?_, h steps step [] rfl⟩
    exact h before s (after ++ [step]) (by rw [heq, List.append_assoc, List.cons_append])
  · rintro ⟨hsteps, hlast⟩ before s after heq
    rcases List.eq_nil_or_concat after with rfl | ⟨after, last, rfl⟩
    · obtain ⟨rfl, hs⟩ := List.append_inj' heq rfl
      cases hs
      exact hlast
    · rw [List.concat_eq_append, ← List.cons_append, ← List.append_assoc] at heq
      exact hsteps before s after (List.append_inj' heq rfl).1

/-- Clients are only added. -/
theorem clients_length_le (hub : Hub) (step : RelayStep) :
    hub.clients.length ≤ (hub.step settings step).clients.length := by
  cases step with
  | connect endpoint => simp [Hub.step]
  | fanOut fields => simp [Hub.step, Hub.fanOut]
  | proceed i => simp [Hub.step]
  | close i => simp [Hub.step]

theorem clients_length_run_le (settings : RelaySettings) (before after : List RelayStep) :
    (Hub.run settings before).clients.length ≤ (Hub.run settings (before ++ after)).clients.length := by
  induction after using List.reverseRecOn with
  | nil => rw [List.append_nil]
  | append_singleton after step ih =>
      rw [← List.append_assoc, run_concat]
      exact ih.trans (clients_length_le _ step)

/-- Before a client is connected, nothing happened to it. -/
theorem always_of_new {Q : Hub → RelayStep → Client → Prop} :
    Always settings (fun hub step => ∀ client,
      hub.clients[(Hub.run settings steps).clients.length]? = some client → Q hub step client)
      steps := by
  intro before step after heq client hclient
  have hle := clients_length_run_le settings before (step :: after)
  rw [← heq] at hle
  rw [List.getElem?_eq_none hle] at hclient
  cases hclient

end Runs

end AgentPay.Relay
