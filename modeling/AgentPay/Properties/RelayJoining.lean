import AgentPay.Relay.Hub

/-!
# Joining the stream

A client is registered with the hub, gets a hello frame, then the events of the replay buffer, and then
those of its queue. The replay is taken only when the hello frame is through. What falls between the
registration and the replay is in the queue and, as long as the buffer keeps it, in the replay too,
and what the buffer gives up meanwhile is in neither. A client is sent exactly what it is owed when
there is nothing of the kind (`joins_exactly_iff`).
-/

set_option autoImplicit false

namespace AgentPay.Relay

open AgentPay.Library AgentPay.Gateway

/-- The event a frame carries. -/
def Frame.event? : Frame → Option Numbered
  | .stage _ event => some event
  | _ => none

/-- The events sent, in the order of their frames. -/
def Client.stages (client : Client) : List Numbered := client.sent.filterMap Frame.event?

/-- The events still to be sent. -/
def pending (phase : ServePhase) (queue : List Numbered) : List Numbered :=
  match phase with
  | .replaying rest => rest ++ queue
  | _ => queue

/-- What the client is sent: the events sent already and those to come. -/
def Client.deliveries (client : Client) : List Numbered :=
  client.stages ++ pending client.phase client.subscriber.queue

/-- What the client is owed: its events in the replay buffer when it joined, and those fanned out
afterwards and not dropped. -/
def Client.owed (client : Client) : List Numbered := client.buffered ++ client.accepted

/-- The client is sent all it is owed, what was fanned out first before the rest, and so nothing
twice. -/
structure Client.JoinsExactly (client : Client) : Prop where
  all : ∀ event ∈ client.owed, event ∈ client.deliveries
  inOrder : client.deliveries.Pairwise fun event later =>
    event ∈ client.owed → later ∈ client.owed → event.number < later.number

/-- When the replay is taken for this client, its events that were in the replay buffer when it joined
are still there, and none of its queue is. -/
def Joins (i : ℕ) (hub : Hub) (step : RelayStep) : Prop :=
  ∀ client, hub.clients[i]? = some client → step = .proceed i → client.phase = .hello →
    (∀ event ∈ client.buffered, event ∈ hub.recent) ∧
      ∀ event ∈ client.subscriber.queue, event ∉ hub.recent

/-- Events in the order of fan-out. -/
abbrev InOrder (events : List Numbered) : Prop :=
  events.Pairwise fun event later => event.number < later.number

section Stream

variable {settings : RelaySettings} {hub : Hub} {client : Client}

/-- The replay buffer is in the order of fan-out. -/
structure Hub.Ordered (hub : Hub) : Prop where
  inOrder : InOrder hub.recent
  seen : ∀ event ∈ hub.recent, event.number ≤ hub.eventsSeen

/-- What a client is owed is in the order of fan-out. -/
structure Client.Recorded (hub : Hub) (client : Client) : Prop where
  inOrder : InOrder client.owed
  seen : ∀ event ∈ client.owed, event.number ≤ hub.eventsSeen
  wanted : ∀ event ∈ client.owed, client.subscriber.wants event.fields = true

/-- A new event comes last. -/
theorem inOrder_concat {events : List Numbered} {event : Numbered} (h : InOrder events)
    (hlast : ∀ before ∈ events, before.number < event.number) : InOrder (events ++ [event]) := by
  refine List.pairwise_append.2 ⟨h, List.pairwise_singleton .., fun before hbefore later hlater => ?_⟩
  rw [List.mem_singleton.1 hlater]
  exact hlast before hbefore

theorem ordered_run (settings : RelaySettings) (steps : List RelayStep) :
    (Hub.run settings steps).Ordered := by
  induction steps using List.reverseRecOn with
  | nil => exact ⟨.nil, fun event hevent => absurd hevent List.not_mem_nil⟩
  | append_singleton steps step ih =>
      rw [run_concat]
      cases step with
      | fanOut fields =>
          set hub := Hub.run settings steps with hhub
          refine ⟨(inOrder_concat ih.inOrder fun event hevent => ?_).sublist (List.drop_sublist _ _),
            fun event hevent => ?_⟩
          · exact Nat.lt_succ_of_le (ih.seen event hevent)
          · rcases List.mem_append.1 (List.mem_of_mem_drop hevent) with hevent | hevent
            · exact (ih.seen event hevent).trans (Nat.le_succ _)
            · rw [List.mem_singleton.1 hevent]
              exact le_rfl
      | connect endpoint => exact ⟨ih.inOrder, ih.seen⟩
      | proceed i => exact ⟨ih.inOrder, ih.seen⟩
      | close i => exact ⟨ih.inOrder, ih.seen⟩

theorem Hub.Ordered.replay (h : hub.Ordered) (s : Subscriber) : InOrder (hub.replay s) :=
  h.inOrder.sublist List.filter_sublist

theorem mem_replay {s : Subscriber} {event : Numbered} :
    event ∈ hub.replay s ↔ event ∈ hub.recent ∧ s.wants event.fields = true := by
  rw [Hub.replay, List.mem_filter]

/-- What stays of a client that receives an event, and what its queue takes. -/
structure Receives (event : Numbered) (client client' : Client) : Prop where
  phase : client'.phase = client.phase
  sent : client'.sent = client.sent
  buffered : client'.buffered = client.buffered
  wants : client'.subscriber.wants = client.subscriber.wants
  taken : client'.accepted = client.accepted ∧
      client'.subscriber.queue = client.subscriber.queue ∨
    client.subscriber.wants event.fields = true ∧ client'.accepted = client.accepted ++ [event] ∧
      client'.subscriber.queue = client.subscriber.queue ++ [event]

theorem receives (client : Client) (event : Numbered) :
    Receives event client (client.receive settings event) := by
  by_cases hleft : client.phase = .closed ∨ client.subscriber.wants event.fields = false
  · rw [receive_of_not hleft]
    exact ⟨rfl, rfl, rfl, rfl, .inl ⟨rfl, rfl⟩⟩
  · obtain ⟨hopen, hwants⟩ := not_or.1 hleft
    rw [Bool.not_eq_false] at hwants
    rw [receive_of_wants hopen hwants, Subscriber.put]
    cases client.subscriber.full settings with
    | true => exact ⟨rfl, rfl, rfl, rfl, .inl ⟨rfl, rfl⟩⟩
    | false => exact ⟨rfl, rfl, rfl, rfl, .inr ⟨hwants, rfl, rfl⟩⟩

theorem Client.Recorded.receive {client' : Client} {fields : List (String × Json)}
    (h : client.Recorded hub) (hr : Receives ⟨hub.eventsSeen + 1, fields⟩ client client') :
    client'.Recorded (hub.fanOut settings fields) := by
  have hseen : ∀ event ∈ client.owed, event.number ≤ hub.eventsSeen + 1 :=
    fun event hevent => (h.seen event hevent).trans (Nat.le_succ _)
  rcases hr.taken with ⟨haccepted, -⟩ | ⟨hwants, haccepted, -⟩
  · have howed : client'.owed = client.owed := by
      rw [Client.owed, Client.owed, hr.buffered, haccepted]
    exact ⟨howed ▸ h.inOrder, howed ▸ hseen, howed ▸ hr.wants ▸ h.wanted⟩
  · have howed : client'.owed = client.owed ++ [⟨hub.eventsSeen + 1, fields⟩] := by
      rw [Client.owed, Client.owed, hr.buffered, haccepted, List.append_assoc]
    constructor <;> rw [howed]
    · exact inOrder_concat h.inOrder fun event hevent => Nat.lt_succ_of_le (h.seen event hevent)
    · exact List.forall_mem_append.2 ⟨hseen, by simp [Hub.fanOut]⟩
    · rw [hr.wants]
      exact List.forall_mem_append.2 ⟨h.wanted, by simpa using hwants⟩

/-- What a client does by itself does not change what it is owed. -/
structure Keeps (client client' : Client) : Prop where
  buffered : client'.buffered = client.buffered
  accepted : client'.accepted = client.accepted
  wants : client'.subscriber.wants = client.subscriber.wants

theorem keeps_replayFrom (client : Client) (rest : List Numbered) :
    Keeps client (client.replayFrom rest) := by
  cases rest <;> exact ⟨rfl, rfl, rfl⟩

theorem keeps_proceed (hub : Hub) (client : Client) : Keeps client (client.proceed hub) := by
  rw [Client.proceed]
  split
  · exact keeps_replayFrom client _
  · exact keeps_replayFrom client _
  · split <;> exact ⟨rfl, rfl, rfl⟩
  · split <;> exact ⟨rfl, rfl, rfl⟩
  · exact ⟨rfl, rfl, rfl⟩
  · exact ⟨rfl, rfl, rfl⟩

theorem Client.Recorded.keeps {client' : Client} {hub' : Hub} (h : client.Recorded hub)
    (hk : Keeps client client') (hseen : hub.eventsSeen ≤ hub'.eventsSeen) :
    client'.Recorded hub' := by
  have howed : client'.owed = client.owed := by
    rw [Client.owed, Client.owed, hk.buffered, hk.accepted]
  refine ⟨howed ▸ h.inOrder, fun event hevent => ?_, howed ▸ hk.wants ▸ h.wanted⟩
  exact (h.seen event (howed ▸ hevent)).trans hseen

theorem recorded_run (steps : List RelayStep) {i : ℕ} {client : Client}
    (h : (Hub.run settings steps).clients[i]? = some client) :
    client.Recorded (Hub.run settings steps) := by
  induction steps using List.reverseRecOn generalizing client with
  | nil => cases h
  | append_singleton steps step ih =>
      rw [run_concat] at h ⊢
      rcases client_cases h with ⟨endpoint, rfl, -, rfl⟩ | ⟨before, hbefore, hhappens⟩
      · have howed : ((Hub.run settings steps).connect endpoint).owed =
            (Hub.run settings steps).replay { requestId := endpoint.requestId } := List.append_nil _
        have hordered := ordered_run settings steps
        constructor <;> rw [howed]
        · exact hordered.replay _
        · exact fun event hevent => hordered.seen event (mem_replay.1 hevent).1
        · exact fun event hevent => (mem_replay.1 hevent).2
      · have hold := ih hbefore
        cases hhappens with
        | receive _ fields => exact hold.receive (receives before _)
        | proceed => exact hold.keeps (keeps_proceed _ before) le_rfl
        | close => exact hold.keeps ⟨rfl, rfl, rfl⟩ le_rfl
        | connectOther => exact hold.keeps ⟨rfl, rfl, rfl⟩ le_rfl
        | proceedOther => exact hold.keeps ⟨rfl, rfl, rfl⟩ le_rfl
        | closeOther => exact hold.keeps ⟨rfl, rfl, rfl⟩ le_rfl

/-! ## The stream of a client -/

/-- Serving goes on after the replay was taken. -/
def ServePhase.Serving : ServePhase → Prop
  | .hello | .closed => False
  | _ => True

theorem deliveries_replayFrom (client : Client) (rest : List Numbered) :
    (client.replayFrom rest).deliveries = client.stages ++ rest ++ client.subscriber.queue := by
  cases rest with
  | nil => rw [List.append_nil]; rfl
  | cons event rest =>
      simp [Client.replayFrom, Client.deliveries, Client.stages, pending, Frame.event?]

theorem serving_replayFrom (client : Client) (rest : List Numbered) :
    (client.replayFrom rest).phase.Serving := by
  cases rest <;> trivial

/-- Serving on sends what was to come. -/
theorem deliveries_proceed (hub : Hub) (h : client.phase.Serving) :
    (client.proceed hub).deliveries = client.deliveries ∧ (client.proceed hub).phase.Serving := by
  rw [Client.proceed]
  cases hphase : client.phase with
  | hello =>
      rw [hphase] at h
      exact h.elim
  | closed =>
      rw [hphase] at h
      exact h.elim
  | replaying rest =>
      refine ⟨?_, serving_replayFrom client rest⟩
      simp only
      rw [deliveries_replayFrom, Client.deliveries, hphase, pending, List.append_assoc]
  | waiting =>
      simp only
      cases hqueue : client.subscriber.queue with
      | nil => exact ⟨rfl, hphase ▸ trivial⟩
      | cons event queue =>
          refine ⟨?_, trivial⟩
          simp [Client.deliveries, Client.stages, pending, Frame.event?, hphase, hqueue]
  | live =>
      simp only
      split
      · refine ⟨?_, trivial⟩
        simp [Client.deliveries, Client.stages, pending, hphase]
      · refine ⟨?_, trivial⟩
        simp [Client.deliveries, Client.stages, pending, Frame.event?, hphase]
  | announcing =>
      refine ⟨?_, trivial⟩
      simp [Client.deliveries, Client.stages, pending, hphase]

/-- The deliveries of a client in service are its replay and what its queue took, early while it joined
and late after the replay was taken. -/
structure Stream (hub : Hub) (client : Client) (joined : Prop)
    (replay early late : List Numbered) : Prop where
  deliveries : client.deliveries = replay ++ client.accepted
  accepted : client.accepted = early ++ late
  inOrder : InOrder replay
  seen : ∀ event ∈ replay, event.number ≤ hub.eventsSeen
  later : ∀ event ∈ replay, ∀ new ∈ late, event.number < new.number
  joined_iff : joined ↔ (∀ event ∈ client.buffered, event ∈ replay) ∧ ∀ event ∈ early, event ∉ replay

/-- What holds of a client that joins, and of one in service. -/
structure Client.Streams (hub : Hub) (client : Client) (joined : Prop) : Prop where
  joining : client.phase = .hello → joined ∧ client.stages = [] ∧
    client.subscriber.queue = client.accepted
  serving : client.phase.Serving → ∃ replay early late, Stream hub client joined replay early late

variable {joined joined' : Prop}

theorem Client.Streams.receive {client' : Client} {fields : List (String × Json)}
    (h : client.Streams hub joined) (hjoined : joined' ↔ joined)
    (hr : Receives ⟨hub.eventsSeen + 1, fields⟩ client client') :
    client'.Streams (hub.fanOut settings fields) joined' := by
  constructor
  · intro hphase
    rw [hr.phase] at hphase
    obtain ⟨hyes, hstages, hqueue⟩ := h.joining hphase
    refine ⟨hjoined.2 hyes, by rw [Client.stages, hr.sent]; exact hstages, ?_⟩
    rcases hr.taken with ⟨haccepted, hqueue'⟩ | ⟨-, haccepted, hqueue'⟩
    · rw [hqueue', haccepted, hqueue]
    · rw [hqueue', haccepted, hqueue]
  · intro hphase
    rw [hr.phase] at hphase
    obtain ⟨replay, early, late, hs⟩ := h.serving hphase
    have hseen : ∀ event ∈ replay, event.number ≤ hub.eventsSeen + 1 :=
      fun event hevent => (hs.seen event hevent).trans (Nat.le_succ _)
    have hiff : joined' ↔ (∀ event ∈ client'.buffered, event ∈ replay) ∧
        ∀ event ∈ early, event ∉ replay := by
      rw [hr.buffered]
      exact hjoined.trans hs.joined_iff
    rcases hr.taken with ⟨haccepted, hqueue⟩ | ⟨-, haccepted, hqueue⟩
    · refine ⟨replay, early, late, ?_, haccepted.trans hs.accepted, hs.inOrder, hseen, hs.later,
        hiff⟩
      rw [Client.deliveries, Client.stages, hr.sent, hr.phase, hqueue, haccepted]
      exact hs.deliveries
    · refine ⟨replay, early, late ++ [⟨hub.eventsSeen + 1, fields⟩], ?_, ?_, hs.inOrder, hseen, ?_,
        hiff⟩
      · have hpending : ∀ event, pending client.phase (client.subscriber.queue ++ [event]) =
            pending client.phase client.subscriber.queue ++ [event] := by
          intro event
          cases client.phase with
          | replaying rest => exact (List.append_assoc _ _ _).symm
          | _ => rfl
        rw [Client.deliveries, Client.stages, hr.sent, hr.phase, hqueue, haccepted, hpending,
          ← List.append_assoc, ← List.append_assoc]
        exact congrArg (· ++ _) hs.deliveries
      · rw [haccepted, hs.accepted, List.append_assoc]
      · intro event hevent new hnew
        rcases List.mem_append.1 hnew with hnew | hnew
        · exact hs.later event hevent new hnew
        · rw [List.mem_singleton.1 hnew]
          exact Nat.lt_succ_of_le (hs.seen event hevent)

/-- The client goes on, by itself. -/
theorem Client.Streams.proceed (h : client.Streams hub joined) (hhub : hub.Ordered)
    (hrecorded : client.Recorded hub)
    (hjoined : joined' ↔ joined ∧ (client.phase = .hello →
      (∀ event ∈ client.buffered, event ∈ hub.recent) ∧
        ∀ event ∈ client.subscriber.queue, event ∉ hub.recent)) :
    (client.proceed hub).Streams hub joined' := by
  have hkeeps := keeps_proceed hub client
  by_cases hhello : client.phase = .hello
  · -- the replay is taken
    obtain ⟨hyes, hstages, hqueue⟩ := h.joining hhello
    have hproceed : client.proceed hub = client.replayFrom (hub.replay client.subscriber) := by
      rw [Client.proceed, hhello]
    have hserving := serving_replayFrom client (hub.replay client.subscriber)
    rw [← hproceed] at hserving
    refine ⟨fun hphase => absurd hserving (by rw [hphase]; exact id), fun _ => ?_⟩
    refine ⟨hub.replay client.subscriber, client.accepted, [], ?_, ?_, hhub.replay _, ?_, ?_, ?_⟩
    · rw [hkeeps.accepted, hproceed, deliveries_replayFrom, hstages, hqueue, List.nil_append]
    · rw [hkeeps.accepted, List.append_nil]
    · exact fun event hevent => hhub.seen event (mem_replay.1 hevent).1
    · exact fun _ _ new hnew => absurd hnew List.not_mem_nil
    · rw [hjoined, hkeeps.buffered, hqueue]
      have hmem : ∀ event ∈ client.owed,
          (event ∈ hub.replay client.subscriber ↔ event ∈ hub.recent) := fun event hevent =>
        mem_replay.trans (and_iff_left (hrecorded.wanted event hevent))
      constructor
      · rintro ⟨-, hall⟩
        obtain ⟨hbuffered, hnew⟩ := hall hhello
        exact ⟨fun event hevent => (hmem event (List.mem_append_left _ hevent)).2
            (hbuffered event hevent),
          fun event hevent => mt (hmem event (List.mem_append_right _ hevent)).1
            (hnew event hevent)⟩
      · rintro ⟨hbuffered, hnew⟩
        exact ⟨hyes, fun _ => ⟨fun event hevent => (hmem event (List.mem_append_left _ hevent)).1
            (hbuffered event hevent),
          fun event hevent => mt (hmem event (List.mem_append_right _ hevent)).2
            (hnew event hevent)⟩⟩
  · have hsame : joined' ↔ joined := hjoined.trans (and_iff_left fun hphase => absurd hphase hhello)
    by_cases hserving : client.phase.Serving
    · obtain ⟨hdeliveries, hserving'⟩ := deliveries_proceed hub hserving
      obtain ⟨replay, early, late, hs⟩ := h.serving hserving
      refine ⟨fun hphase => absurd hserving' (by rw [hphase]; exact id), fun _ => ?_⟩
      refine ⟨replay, early, late, ?_, hkeeps.accepted.trans hs.accepted, hs.inOrder, hs.seen,
        hs.later, ?_⟩
      · rw [hdeliveries, hkeeps.accepted, hs.deliveries]
      · rw [hkeeps.buffered]
        exact hsame.trans hs.joined_iff
    · have hclosed : client.phase = .closed := by
        cases hphase : client.phase with
        | hello => exact absurd hphase hhello
        | closed => rfl
        | _ => exact absurd (by rw [hphase]; trivial) hserving
      have hproceed : client.proceed hub = client := by rw [Client.proceed, hclosed]
      rw [hproceed]
      exact ⟨fun hphase => absurd hphase hhello, fun hphase => absurd hphase hserving⟩

theorem streams_run (settings : RelaySettings) (steps : List RelayStep) {i : ℕ} {client : Client}
    (h : (Hub.run settings steps).clients[i]? = some client) :
    client.Streams (Hub.run settings steps) (Always settings (Joins i) steps) := by
  induction steps using List.reverseRecOn generalizing client with
  | nil => cases h
  | append_singleton steps step ih =>
      rw [run_concat] at h ⊢
      rw [always_concat]
      rcases client_cases h with ⟨endpoint, rfl, rfl, rfl⟩ | ⟨before, hbefore, hhappens⟩
      · refine ⟨fun _ => ⟨⟨always_of_new, ?_⟩, rfl, rfl⟩, fun hphase => False.elim hphase⟩
        exact fun _ _ heq => nomatch heq
      · have hold := ih hbefore
        -- a step that does not serve the client is no replay of its own
        have hother : step ≠ .proceed i → (Always settings (Joins i) steps ∧
            Joins i (Hub.run settings steps) step ↔ Always settings (Joins i) steps) :=
          fun hstep => and_iff_left fun _ _ heq => absurd heq hstep
        have hsame : ∀ {hub'}, step ≠ .proceed i → (Hub.run settings steps).eventsSeen =
            Hub.eventsSeen hub' → before.Streams hub' (Always settings (Joins i) steps ∧
              Joins i (Hub.run settings steps) step) := by
          intro hub' hstep hseen
          refine ⟨fun hphase => ?_, fun hphase => ?_⟩
          · rw [hother hstep]
            exact hold.joining hphase
          · obtain ⟨replay, early, late, hs⟩ := hold.serving hphase
            exact ⟨replay, early, late, hs.deliveries, hs.accepted, hs.inOrder, hseen ▸ hs.seen,
              hs.later, (hother hstep).trans hs.joined_iff⟩
        cases hhappens with
        | receive _ fields =>
            exact hold.receive (hother RelayStep.noConfusion) (receives before _)
        | proceed =>
            have hstreams : (before.proceed (Hub.run settings steps)).Streams (Hub.run settings steps)
                (Always settings (Joins i) steps ∧ Joins i (Hub.run settings steps) (.proceed i)) := by
              refine hold.proceed (ordered_run settings steps) (recorded_run steps hbefore)
                (and_congr_right fun _ => ?_)
              constructor
              · exact fun hjoins hphase => hjoins before hbefore rfl hphase
              · intro hjoins client hclient _ hphase
                rw [hbefore, Option.some_inj] at hclient
                subst hclient
                exact hjoins hphase
            -- the step changes the clients, and no event
            obtain ⟨hjoining, hserving⟩ := hstreams
            refine ⟨hjoining, fun hphase => ?_⟩
            obtain ⟨replay, early, late, hs⟩ := hserving hphase
            exact ⟨replay, early, late, hs.deliveries, hs.accepted, hs.inOrder, hs.seen, hs.later,
              hs.joined_iff⟩
        | close => exact ⟨fun hphase => ServePhase.noConfusion hphase, fun hphase => False.elim hphase⟩
        | connectOther => exact hsame RelayStep.noConfusion rfl
        | proceedOther _ hne => exact hsame (fun heq => hne (RelayStep.proceed.inj heq)) rfl
        | closeOther => exact hsame RelayStep.noConfusion rfl

/-! ## Going on -/

/-- How often a client in service is resumed before it is back at its queue. -/
def ServePhase.resumed : ServePhase → ℕ
  | .replaying rest => rest.length + 1
  | .live => 2
  | .announcing => 1
  | _ => 0

/-- How far a client in service is from an empty queue. -/
def Client.rank (client : Client) : ℕ := client.phase.resumed + 3 * client.subscriber.queue.length

theorem stages_of_rank (h : client.phase.Serving) (hrank : client.rank = 0) :
    client.stages = client.deliveries := by
  obtain ⟨hresumed, hqueue⟩ : client.phase.resumed = 0 ∧ client.subscriber.queue.length = 0 := by
    rw [Client.rank] at hrank
    omega
  rw [List.length_eq_zero_iff] at hqueue
  rw [Client.deliveries, hqueue]
  cases hphase : client.phase with
  | hello => exact absurd h (by rw [hphase]; exact id)
  | closed => exact absurd h (by rw [hphase]; exact id)
  | waiting => exact (List.append_nil _).symm
  | _ => exact absurd hresumed (by rw [hphase]; exact Nat.succ_ne_zero _)

/-- Serving on comes closer to the empty queue. -/
theorem rank_proceed_lt (hub : Hub) (h : client.phase.Serving) (hrank : client.rank ≠ 0) :
    (client.proceed hub).rank < client.rank := by
  rw [Client.proceed]
  cases hphase : client.phase with
  | hello => exact absurd h (by rw [hphase]; exact id)
  | closed => exact absurd h (by rw [hphase]; exact id)
  | replaying rest =>
      cases rest with
      | nil => simp [Client.replayFrom, Client.rank, ServePhase.resumed, hphase]
      | cons event rest => simp [Client.replayFrom, Client.rank, ServePhase.resumed, hphase]
  | waiting =>
      cases hqueue : client.subscriber.queue with
      | nil => exact absurd (by simp [Client.rank, ServePhase.resumed, hphase, hqueue]) hrank
      | cons event queue =>
          simp only [Client.rank, ServePhase.resumed, hphase, hqueue, List.length_cons]
          omega
  | live =>
      by_cases hdropped : client.subscriber.dropped = 0
      · simp [Client.rank, ServePhase.resumed, hphase, hdropped]
      · simp [Client.rank, ServePhase.resumed, hphase, hdropped]
  | announcing => simp [Client.rank, ServePhase.resumed, hphase]

/-- A client in service that is left alone is sent what is to come. -/
theorem exists_drained (settings : RelaySettings) (steps : List RelayStep) {i : ℕ} {client : Client}
    (h : (Hub.run settings steps).clients[i]? = some client) (hserving : client.phase.Serving) :
    ∃ n drained, (Hub.run settings (steps ++ List.replicate n (.proceed i))).clients[i]? =
      some drained ∧ drained.stages = client.deliveries := by
  induction hrank : client.rank using Nat.strong_induction_on generalizing steps client with
  | _ rank ih =>
      by_cases hzero : client.rank = 0
      · exact ⟨0, client, by rw [List.replicate_zero, List.append_nil]; exact h,
          stages_of_rank hserving hzero⟩
      · obtain ⟨hdeliveries, hserving'⟩ :=
          deliveries_proceed (Hub.run settings steps) hserving
        have hnext : (Hub.run settings (steps ++ [.proceed i])).clients[i]? =
            some (client.proceed (Hub.run settings steps)) := by
          rw [run_concat, Hub.step, List.getElem?_modify, h]
          simp
        obtain ⟨n, drained, hrun, hstages⟩ := ih _
          (hrank ▸ rank_proceed_lt (Hub.run settings steps) hserving hzero) _ hnext hserving' rfl
        refine ⟨n + 1, drained, ?_, hstages.trans hdeliveries⟩
        rw [List.replicate_succ, List.append_cons]
        exact hrun

end Stream

end AgentPay.Relay

namespace AgentPay.Properties

open AgentPay.Library AgentPay.Gateway AgentPay.Relay

/-- What is sent twice or not at all was in the wrong place when the replay was taken. -/
theorem joinsExactly_iff {hub : Hub} {client : Client} {joined : Prop}
    {replay early late : List Numbered} (hrecorded : client.Recorded hub)
    (hs : Stream hub client joined replay early late) : client.JoinsExactly ↔ joined := by
  obtain ⟨hbuffered, haccepted, hbetween⟩ := List.pairwise_append.1 hrecorded.inOrder
  have hself : ∀ event ∈ client.buffered, event ∉ client.accepted := fun event hb ha =>
    Nat.lt_irrefl _ (hbetween event hb event ha)
  rw [hs.joined_iff]
  constructor
  · intro h
    have horder := h.inOrder
    rw [hs.deliveries] at horder
    refine ⟨fun event hevent => ?_, fun event hevent hreplay => ?_⟩
    · have hmem := h.all event (List.mem_append_left _ hevent)
      rw [hs.deliveries] at hmem
      exact (List.mem_append.1 hmem).resolve_right (hself event hevent)
    · have hin : event ∈ client.accepted := by
        rw [hs.accepted]
        exact List.mem_append_left _ hevent
      have howed : event ∈ client.owed := List.mem_append_right _ hin
      exact Nat.lt_irrefl _ ((List.pairwise_append.1 horder).2.2 event hreplay event hin howed howed)
  · rintro ⟨hall, hnew⟩
    have hfresh : ∀ event ∈ client.accepted, event ∉ replay := by
      intro event hevent hreplay
      rw [hs.accepted] at hevent
      rcases List.mem_append.1 hevent with hearly | hlate
      · exact hnew event hearly hreplay
      · exact Nat.lt_irrefl _ (hs.later event hreplay event hlate)
    refine ⟨fun event hevent => ?_, ?_⟩
    · rw [hs.deliveries]
      exact (List.mem_append.1 hevent).elim (fun h => List.mem_append_left _ (hall event h))
        fun h => List.mem_append_right _ h
    · rw [hs.deliveries]
      refine List.pairwise_append.2 ⟨hs.inOrder.imp fun h _ _ => h, haccepted.imp fun h _ _ => h, ?_⟩
      intro event hevent later hlater howed _
      rcases List.mem_append.1 howed with hbuffered | haccepted
      · exact hbetween event hbuffered later hlater
      · exact absurd hevent (hfresh event haccepted)

/-- A client is sent what it is owed, each event once and in the order of fan-out, exactly when the replay
is taken before anything of it could move: in every run, for every client in service, what is sent to
it and what is still to come, which it is sent if it is left alone, are as they should be if and only
if, when its replay was taken, its events in the replay buffer at `hub.add` were still there and no
event of its queue was. -/
theorem joins_exactly_iff (settings : RelaySettings) (steps : List RelayStep) {i : ℕ} {client : Client}
    (h : (Hub.run settings steps).clients[i]? = some client) (hserving : client.phase.Serving) :
    (client.JoinsExactly ↔ Always settings (Joins i) steps) ∧
      ∃ n drained, (Hub.run settings (steps ++ List.replicate n (.proceed i))).clients[i]? =
        some drained ∧ drained.stages = client.deliveries := by
  obtain ⟨replay, early, late, hs⟩ := (streams_run settings steps h).serving hserving
  exact ⟨joinsExactly_iff (recorded_run steps h) hs, exists_drained settings steps h hserving⟩

/-- One event is in the replay buffer when the client joins, and one comes when the hello frame is
through. -/
theorem joins_exactly_late :
    let steps : List RelayStep := [.fanOut [], .connect .live, .proceed 0, .fanOut []]
    ∃ client, (Hub.run {} steps).clients[0]? = some client ∧ client.JoinsExactly ∧
      Always {} (Joins 0) steps := by
  intro steps
  obtain ⟨client, hclient, hserving, hjoins⟩ : ∃ client, (Hub.run {} steps).clients[0]? =
      some client ∧ client.phase.Serving ∧ client.JoinsExactly := by
    refine ⟨_, rfl, trivial, fun event hevent => hevent, ?_⟩
    exact List.pairwise_pair.2 fun _ _ => Nat.lt_succ_self _
  exact ⟨client, hclient, hjoins, (joins_exactly_iff {} steps hclient hserving).1.1 hjoins⟩

/-- An event that is fanned out while the hello frame is being sent is sent twice. -/
theorem joins_twice : ∃ client : Client,
    (Hub.run {} [.connect .live, .fanOut [], .proceed 0, .proceed 0, .proceed 0]).clients[0]? =
      some client ∧ client.phase.Serving ∧ client.stages = [⟨1, []⟩, ⟨1, []⟩] ∧
      ¬ client.JoinsExactly := by
  refine ⟨_, rfl, trivial, rfl, fun h => ?_⟩
  have hmem : (⟨1, []⟩ : Numbered) ∈ [(⟨1, []⟩ : Numbered)] := List.mem_singleton_self _
  exact Nat.lt_irrefl 1 (List.pairwise_pair.1 h.inOrder hmem hmem)

end AgentPay.Properties
