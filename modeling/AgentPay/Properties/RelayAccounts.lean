import AgentPay.Relay.Hub

/-!
# The relay accounts for its events

An event that a client wants is queued, or counted as dropped when the queue is full. The count is
announced in a frame of its own and reset when that frame is through, so a drop that falls into the
sending is forgotten. The account of a client is right exactly when there was none
(`relay_accounts_iff`).
-/

set_option autoImplicit false

namespace AgentPay.Relay

open AgentPay.Library AgentPay.Gateway

/-- A live event. -/
def Frame.isLive : Frame → Bool
  | .stage false _ => true
  | _ => false

/-- The drops a frame announces. -/
def Frame.count : Frame → ℕ
  | .dropped count => count
  | _ => 0

/-- The number of events taken from the queue. -/
def Client.taken (client : Client) : ℕ := client.sent.countP Frame.isLive

/-- The sum of the announced drops. -/
def Client.announced (client : Client) : ℕ := (client.sent.map Frame.count).sum

/-- The events offered are those taken, queued, announced as dropped, and counted as dropped. -/
def Client.Accounted (client : Client) : Prop :=
  client.offered.length = client.taken + client.subscriber.queue.length + client.announced +
    client.subscriber.dropped

/-- An event of the client finds its queue full while a dropped frame is being sent. -/
def Client.Forgets (settings : RelaySettings) (client : Client) (fields : List (String × Json)) :
    Prop :=
  client.phase = .announcing ∧ client.subscriber.wants fields = true ∧
    client.subscriber.full settings = true

/-- The drops that will still be announced: while an announcement is on its way, none, since the
counter is reset when it is through. -/
def undeclared (phase : ServePhase) (dropped : ℕ) : ℕ :=
  match phase with
  | .announcing => 0
  | _ => dropped

/-- The account of an open client with a number of forgotten drops. -/
def Client.Balance (client : Client) (lost : ℕ) : Prop :=
  client.phase ≠ .closed → client.offered.length = client.taken +
    client.subscriber.queue.length + client.announced + undeclared client.phase client.subscriber.dropped + lost

section Balance

variable {settings : RelaySettings} {hub : Hub} {client : Client} {lost : ℕ}

theorem balance_replayFrom (rest : List Numbered)
    (h : client.offered.length = client.taken + client.subscriber.queue.length + client.announced +
      client.subscriber.dropped + lost) : (client.replayFrom rest).Balance lost := by
  cases rest with
  | nil => exact fun _ => h
  | cons event rest =>
      intro _
      simpa [Client.replayFrom, Client.taken, Client.announced, undeclared, Frame.isLive,
        Frame.count] using h

/-- What the client does by itself keeps the account. -/
theorem Client.Balance.proceed (h : client.Balance lost) (hub : Hub) :
    (client.proceed hub).Balance lost := by
  rw [Client.proceed]
  cases hphase : client.phase with
  | hello =>
      have hopen := h (by rw [hphase]; exact ServePhase.noConfusion)
      rw [hphase] at hopen
      exact balance_replayFrom _ hopen
  | replaying rest =>
      have hopen := h (by rw [hphase]; exact ServePhase.noConfusion)
      rw [hphase] at hopen
      exact balance_replayFrom _ hopen
  | waiting =>
      have hopen := h (by rw [hphase]; exact ServePhase.noConfusion)
      rw [hphase] at hopen
      simp only
      cases hqueue : client.subscriber.queue with
      | nil => exact h
      | cons event queue =>
          intro _
          rw [hqueue, List.length_cons] at hopen
          simp only [Client.taken, Client.announced, undeclared, List.countP_append,
            List.map_append, List.sum_append, List.countP_singleton, Frame.isLive, if_true,
            List.map_singleton, Frame.count, List.sum_singleton] at hopen ⊢
          omega
  | live =>
      have hopen := h (by rw [hphase]; exact ServePhase.noConfusion)
      rw [hphase] at hopen
      simp only
      split
      · exact fun _ => hopen
      · intro _
        simp only [Client.taken, Client.announced, undeclared, List.countP_append,
          List.map_append, List.sum_append, List.countP_singleton, Frame.isLive,
          Bool.false_eq_true, if_false, List.map_singleton, Frame.count,
          List.sum_singleton] at hopen ⊢
        omega
  | announcing =>
      have hopen := h (by rw [hphase]; exact ServePhase.noConfusion)
      rw [hphase] at hopen
      exact fun _ => hopen
  | closed => exact h

/-- An event that is fanned out is queued, counted or forgotten. -/
theorem Client.Balance.receive (settings : RelaySettings) (h : client.Balance lost)
    (event : Numbered) :
    (client.Forgets settings event.fields → (client.receive settings event).Balance (lost + 1)) ∧
      (¬ client.Forgets settings event.fields → (client.receive settings event).Balance lost) := by
  by_cases hleft : client.phase = .closed ∨ client.subscriber.wants event.fields = false
  · rw [receive_of_not hleft]
    refine ⟨fun hforgets => ?_, fun _ => h⟩
    rcases hleft with hclosed | hunwanted
    · exact fun hopen => absurd hclosed hopen
    · rw [Client.Forgets, hunwanted] at hforgets
      exact absurd hforgets.2.1 Bool.false_ne_true
  · obtain ⟨hopen, hwants⟩ := not_or.1 hleft
    rw [Bool.not_eq_false] at hwants
    have hbalance := h hopen
    rw [receive_of_wants hopen hwants]
    rw [Subscriber.put]
    cases hfull : client.subscriber.full settings with
    | false =>
        refine ⟨fun hforgets => absurd hforgets.2.2 (by rw [hfull]; exact Bool.false_ne_true),
          fun _ _ => ?_⟩
        simp only [Client.taken, Client.announced, Bool.false_eq_true, if_false,
          List.length_append, List.length_singleton] at hbalance ⊢
        omega
    | true =>
        simp only [if_true]
        refine ⟨fun hforgets _ => ?_, fun hspared _ => ?_⟩
        · rw [hforgets.1] at hbalance ⊢
          simp only [undeclared, Client.taken, Client.announced, List.length_append,
            List.length_singleton] at hbalance ⊢
          omega
        · have hundeclared : undeclared client.phase (client.subscriber.dropped + 1) =
              undeclared client.phase client.subscriber.dropped + 1 := by
            cases hphase : client.phase with
            | announcing => exact absurd ⟨hphase, hwants, hfull⟩ hspared
            | _ => rfl
          simp only [Client.taken, Client.announced, List.length_append, List.length_singleton,
            hundeclared] at hbalance ⊢
          omega

/-- A drop of this client is forgotten by no step. -/
def Spares (settings : RelaySettings) (i : ℕ) (hub : Hub) (step : RelayStep) : Prop :=
  ∀ client, hub.clients[i]? = some client → ∀ fields, step = .fanOut fields →
    ¬ client.Forgets settings fields

/-- The drops that are missing from the account of an open client are those forgotten. -/
theorem exists_balance (settings : RelaySettings) (steps : List RelayStep) {i : ℕ} {client : Client}
    (h : (Hub.run settings steps).clients[i]? = some client) :
    ∃ lost, client.Balance lost ∧ (lost = 0 ↔ Always settings (Spares settings i) steps) := by
  induction steps using List.reverseRecOn generalizing client with
  | nil => cases h
  | append_singleton steps step ih =>
      rw [run_concat] at h
      simp only [always_concat]
      rcases client_cases h with ⟨endpoint, rfl, rfl, rfl⟩ | ⟨before, hbefore, hhappens⟩
      · refine ⟨0, fun _ => rfl, iff_of_true rfl ⟨?_, fun _ _ _ heq => nomatch heq⟩⟩
        exact always_of_new
      · obtain ⟨lost, hbalance, hlost⟩ := ih hbefore
        have hkept : ∀ {after : Client}, after.Balance lost →
            (∀ fields, step ≠ .fanOut fields) → ∃ lost', after.Balance lost' ∧
              (lost' = 0 ↔ Always settings (Spares settings i) steps ∧
                Spares settings i (Hub.run settings steps) step) :=
          fun hafter hstep => ⟨lost, hafter, hlost.trans
            (iff_self_and.2 fun _ _ _ fields heq => absurd heq (hstep fields))⟩
        cases hhappens with
        | receive _ fields =>
            obtain ⟨hforgotten, hspared⟩ := hbalance.receive settings
              ⟨(Hub.run settings steps).eventsSeen + 1, fields⟩
            by_cases hforgets : before.Forgets settings fields
            · refine ⟨lost + 1, hforgotten hforgets, iff_of_false (Nat.succ_ne_zero _) ?_⟩
              exact fun hall => hall.2 before hbefore fields rfl hforgets
            · refine ⟨lost, hspared hforgets, hlost.trans (iff_self_and.2 fun _ => ?_)⟩
              intro client' hclient' fields' heq
              cases heq
              rw [hbefore, Option.some_inj] at hclient'
              exact hclient' ▸ hforgets
        | proceed => exact hkept (hbalance.proceed _) fun _ => RelayStep.noConfusion
        | close => exact hkept (fun hopen => absurd rfl hopen) fun _ => RelayStep.noConfusion
        | connectOther => exact hkept hbalance fun _ => RelayStep.noConfusion
        | proceedOther => exact hkept hbalance fun _ => RelayStep.noConfusion
        | closeOther => exact hkept hbalance fun _ => RelayStep.noConfusion

end Balance

end AgentPay.Relay

namespace AgentPay.Properties

open AgentPay.Library AgentPay.Gateway AgentPay.Relay

/-- The relay accounts for every event exactly when none is dropped while a drop is being announced: in
every run, for every client that waits at its queue, the events offered to it since it joined are those
taken from the queue, those still in it, those announced as dropped and those counted as dropped if
and only if no event of the client found its queue full while a dropped frame was being sent to it. -/
theorem relay_accounts_iff (settings : RelaySettings) (steps : List RelayStep) {i : ℕ}
    {client : Client} (h : (Hub.run settings steps).clients[i]? = some client)
    (hwaiting : client.phase = .waiting) :
    client.Accounted ↔ Always settings (Spares settings i) steps := by
  obtain ⟨lost, hbalance, hlost⟩ := exists_balance settings steps h
  have heq := hbalance (by rw [hwaiting]; exact ServePhase.noConfusion)
  rw [hwaiting, undeclared] at heq
  · rw [← hlost, Client.Accounted, heq]
    omega
  · exact ServePhase.noConfusion

/-- A queue of one event: one event is taken, one announced as dropped, and one queued meanwhile. -/
theorem relay_accounts_announced :
    let settings : RelaySettings := { clientQueueSize := 1 }
    let steps : List RelayStep := [.connect .live, .proceed 0, .fanOut [], .fanOut [], .proceed 0,
      .proceed 0, .fanOut [], .proceed 0]
    ∃ client, (Hub.run settings steps).clients[0]? = some client ∧ client.Accounted ∧
      Always settings (Spares settings 0) steps := by
  intro settings steps
  have haccounted : ∀ client, (Hub.run settings steps).clients[0]? = some client →
      client.Accounted := by
    rintro client ⟨⟩
    unfold Client.Accounted
    decide
  exact ⟨_, rfl, haccounted _ rfl, (relay_accounts_iff settings steps rfl rfl).1 (haccounted _ rfl)⟩

/-- A queue of one event: the last event is dropped while the one drop before it is being announced, and
the reset of the counter forgets it. -/
theorem drop_forgotten : ∃ client : Client,
    (Hub.run { clientQueueSize := 1 } [.connect .live, .proceed 0, .fanOut [], .fanOut [],
      .proceed 0, .proceed 0, .fanOut [], .fanOut [], .proceed 0]).clients[0]? = some client ∧
      client.phase = .waiting ∧ ¬ client.Accounted :=
  ⟨_, rfl, rfl, by unfold Client.Accounted; decide⟩

end AgentPay.Properties
