import AgentPay.Properties.Scenario

/-!
# The state machine under concurrency

`stateHistory` is the sequence of states of one row, newest first, as the run committed them. In a
run in which every commit finds the row in the state its job read, the history follows the valid
transitions (`states_follow_transitions`), and so nothing follows a terminal state
(`lawful_terminal`). Without that a stale check is enough to overwrite a row: the expiry sweep can
expire a payment that was submitted after the sweep had read it (`expired_after_submission`).
-/

set_option autoImplicit false

namespace AgentPay.Properties

open AgentPay.Library AgentPay.Library.Machine AgentPay.Gateway

/-- The state an event wrote, and the payment it wrote it to. -/
def commitOf (ev : Event) : Option (ℕ × PaymentState) :=
  match ev.op, ev.choice with
  | .commitState id target reference detail, .ok =>
      if storable reference detail then some (id, target) else none
  | .commitState id target reference detail, .fault _ true =>
      if storable reference detail then some (id, target) else none
  | _, _ => none

/-- The states of a payment over a log, newest first, from an initial one. -/
def stateHistory (initial : PaymentState) (id : ℕ) : List Event → List PaymentState
  | [] => [initial]
  | ev :: log =>
      match commitOf ev with
      | some (id', target) =>
          if id' = id then target :: stateHistory initial id log else stateHistory initial id log
      | none => stateHistory initial id log

/-- Every state of a history, newest first, is entered from the one before by a valid transition. -/
def Lawful (history : List PaymentState) : Prop :=
  history.IsChain fun newer older => newer ∈ validTransitions older

instance (history : List PaymentState) : Decidable (Lawful history) := by
  unfold Lawful
  infer_instance

/-- Nothing follows a terminal state in a lawful history. -/
theorem lawful_terminal {newer older : List PaymentState} {s : PaymentState}
    (h : Lawful (newer ++ s :: older)) (hs : s ∈ terminal) : newer = [] := by
  induction newer with
  | nil => rfl
  | cons t newer ih =>
      have htail : newer = [] := ih h.tail
      subst htail
      have ht : t ∈ validTransitions s := (List.isChain_cons_cons.1 h).1
      rw [validTransitions_terminal hs] at ht
      exact absurd ht List.not_mem_nil

/-- The state a payment starts from: that of its row, or `CREATED` when it has none yet. -/
def initialState (w : World) (id : ℕ) : PaymentState :=
  ((w.row? id).map Transaction.state).getD .created

/-- A commit finds its row in the state its job read. -/
def commitsFresh (c : Config) (ev : Event) : Bool :=
  match ev.op with
  | .commitState id _ _ _ => ((sessionOf c ev.tid).bind Session.read).any fun read =>
      decide ((c.world.row? id).map Transaction.state = some read.2)
  | _ => true

/-- Runs from a world in which every commit finds its row in the state its job read. -/
def freshCommits (w₀ : World) : Discipline where
  initial w := w = w₀
  run c ev := commitsFresh c ev = true

theorem freshCommits_checked (w₀ : World) : (freshCommits w₀).Checked { run := commitsFresh } :=
  ⟨fun _ _ => trivial, fun _ _ _ => trivial, fun _ _ h => h⟩

/-- A commit takes effect on the row, or leaves the rows alone and is not counted. -/
theorem commit_effect {w w' : World} {id : ℕ} {target : PaymentState} {reference : Option Json}
    {detail : Option String} {o : Outcome} {answer : Except Exn Unit} (tid : ℕ)
    (h : w.perform (.commitState id target reference detail) o = some (w', answer)) :
    (commitOf ⟨tid, .commitState id target reference detail, o, answer⟩ = some (id, target) ∧
      w' = w.updateRow id (Transaction.withState target reference detail)) ∨
    (commitOf ⟨tid, .commitState id target reference detail, o, answer⟩ = none ∧ w' = w) := by
  by_cases hs : storable reference detail = true
  · cases o with
    | ok =>
        cases h
        exact .inl ⟨by simp [commitOf, hs], by simp [World.apply, hs]⟩
    | fault e applied =>
        cases h
        cases applied with
        | true => exact .inl ⟨by simp [commitOf, hs], by simp [World.apply, hs]⟩
        | false => exact .inr ⟨rfl, rfl⟩
    | _ => cases h
  · cases o with
    | ok =>
        cases h
        exact .inr ⟨by simp [commitOf, hs], by simp [World.apply, hs]⟩
    | fault e applied =>
        cases h
        cases applied with
        | true => exact .inr ⟨by simp [commitOf, hs], by simp [World.apply, hs]⟩
        | false => exact .inr ⟨rfl, rfl⟩
    | _ => cases h

/-- The rows agree with the histories: a row is in the last state of its history, and a payment
without a row has none but the initial state. -/
structure Tracked (w : World) (history : List PaymentState) (id : ℕ) : Prop where
  lawful : Lawful history
  row : ∀ s, (w.row? id).map Transaction.state = some s → history.head? = some s
  missing : w.row? id = none → history = [.created]

/-- A commit on a row in the state that was read extends the history by a valid transition. -/
theorem Tracked.commit {w : World} {history : List PaymentState} {id : ℕ}
    {current target : PaymentState} (f : Transaction → Transaction)
    (hf : ∀ r, (f r).paymentAuthorizationId = r.paymentAuthorizationId ∧ (f r).state = target)
    (h : Tracked w history id) (hrow : (w.row? id).map Transaction.state = some current)
    (ht : target ∈ validTransitions current) :
    Tracked (w.updateRow id f) (target :: history) id := by
  obtain ⟨rest, rfl⟩ : ∃ rest, history = current :: rest := by
    cases history with
    | nil => cases h.row current hrow
    | cons s rest =>
        cases h.row current hrow
        exact ⟨rest, rfl⟩
  obtain ⟨row, hr, -⟩ := Option.map_eq_some_iff.1 hrow
  refine ⟨List.isChain_cons_cons.2 ⟨ht, h.lawful⟩, fun s hs => ?_, fun hnone => ?_⟩
  · rw [World.row?_updateRow w id f (fun r => (hf r).1), hr] at hs
    simp only [if_true, Option.map_some, (hf row).2] at hs
    exact hs
  · rw [World.row?_updateRow w id f (fun r => (hf r).1), hr] at hnone
    cases hnone

/-- A change of the rows that keeps every row's state keeps a payment tracked. -/
theorem Tracked.of_states {w w' : World} {history : List PaymentState} {id : ℕ}
    (h : Tracked w history id)
    (hstates : (w'.row? id).map Transaction.state = (w.row? id).map Transaction.state) :
    Tracked w' history id := by
  refine ⟨h.lawful, fun s hs => h.row s (hstates ▸ hs), fun hnone => h.missing ?_⟩
  rw [hnone, Option.map_none] at hstates
  exact Option.map_eq_none_iff.1 hstates.symm

/-- An operation other than a commit keeps a payment tracked. -/
theorem Tracked.perform {w w' : World} {history : List PaymentState} {id : ℕ} {op : Op} {o : Outcome}
    {answer : Except Exn op.Val} (h : Tracked w history id)
    (hp : w.perform op o = some (w', answer))
    (hinsert : ∀ row, op = .insertTransaction row → row.state = .created)
    (hcommit : ∀ id' target reference detail, op ≠ .commitState id' target reference detail) :
    Tracked w' history id := by
  rcases World.perform_transactions hp with heq | ⟨row, hop, hrefuses, heq⟩ |
    ⟨id', target, reference, detail, hop, -⟩ | ⟨id', f, hf, heq⟩
  · exact h.of_states (by rw [World.row?, heq, World.row?])
  · by_cases hid : row.paymentAuthorizationId = id
    · subst hid
      have hcreated := h.missing (World.row?_of_not_refused hrefuses)
      refine ⟨h.lawful, fun s hs => ?_, fun hnone => ?_⟩
      · rw [World.row?_of_insert heq, if_pos rfl, Option.map_some, hinsert row hop] at hs
        rw [hcreated]
        exact hs
      · rw [World.row?_of_insert heq, if_pos rfl] at hnone
        cases hnone
    · exact h.of_states (by rw [World.row?_of_insert heq, if_neg hid])
  · exact absurd hop (hcommit id' target reference detail)
  · refine h.of_states ?_
    have hrow : w'.row? id = (w.updateRow id' f).row? id := by rw [World.row?, heq, World.row?]
    have hkey : ∀ r, (f r).paymentAuthorizationId = r.paymentAuthorizationId := fun r => by
      rw [← Transaction.paymentAuthorizationId_asInserted, (hf r).2,
        Transaction.paymentAuthorizationId_asInserted]
    rw [hrow, World.row?_updateRow w id' f hkey, Option.map_map]
    refine congrArg (Option.map · (w.row? id)) (funext fun r => ?_)
    simp only [Function.comp]
    split
    · exact (hf r).1
    · rfl

/-- In a run in which every commit finds its row in the state its job read, the states committed to
each row follow the valid transitions. -/
theorem states_follow_transitions (R : Runtime) (w₀ : World) (c : Config)
    (hc : Reachable (machine R) (freshCommits w₀) c) (id : ℕ) :
    Lawful (stateHistory (initialState w₀ id) id c.log) := by
  suffices h : Tracked c.world (stateHistory (initialState w₀ id) id c.log) id from h.lawful
  refine Reachable.invariant custody Job.session (job_follows R)
    (I := fun c => Tracked c.world (stateHistory (initialState w₀ id) id c.log) id) ?_ ?_ ?_ ?_ hc
  · rintro w rfl
    refine ⟨List.isChain_singleton _, fun s hs => ?_, fun hnone => ?_⟩
    · simp only [stateHistory, initialState, hs, List.head?_cons, Option.getD_some]
    · simp only [stateHistory, initialState, hnone, Option.map_none, Option.getD_none]
  · exact fun _ _ _ ih _ _ => ih
  · intro c env _ ih _
    refine ih.of_states ?_
    change ((c.world.environment env).row? id).map _ = _
    rw [World.row?, World.environment_transactions, World.row?]
  · intro c tid s job op next o w answer hc ih _ hp _
    have hperform : c.world.perform op o = some (w, answer) := hp.perform
    change Tracked w (stateHistory _ id (⟨tid, op, o, answer⟩ :: c.log)) id
    by_cases hop : ∃ id' target reference detail, op = .commitState id' target reference detail
    · obtain ⟨id', target, reference, detail, rfl⟩ := hop
      obtain ⟨⟨current, hread, ht⟩, -⟩ := hp.guard
      have hfresh : (c.world.row? id').map Transaction.state = some current := by
        have h : commitsFresh c ⟨tid, .commitState id' target reference detail, o, answer⟩ = true :=
          hp.discipline
        simpa only [commitsFresh, sessionOf, hp.session, Option.bind_some, hread, Option.any_some,
          decide_eq_true_eq] using h
      rcases commit_effect tid hperform with ⟨hcommit, rfl⟩ | ⟨hcommit, rfl⟩
      · simp only [stateHistory, hcommit]
        by_cases hid : id' = id
        · subst hid
          rw [if_pos rfl]
          exact ih.commit _ (fun _ => ⟨rfl, rfl⟩) hfresh ht
        · rw [if_neg hid]
          refine ih.of_states ?_
          rw [World.row?_updateRow _ id' (Transaction.withState target reference detail)
            fun _ => rfl]
          simp only [if_neg (Ne.symm hid), Option.map_id']
      · simpa only [stateHistory, hcommit] using ih
    · have hcommit : ∀ id' target reference detail,
          op ≠ .commitState id' target reference detail :=
        fun id' target reference detail h => hop ⟨id', target, reference, detail, h⟩
      have hnone : commitOf ⟨tid, op, o, answer⟩ = none := by
        cases op with
        | commitState id' target reference detail => exact absurd rfl (hcommit _ _ _ _)
        | _ => rfl
      simp only [stateHistory, hnone]
      refine ih.perform hperform (fun row h => ?_) hcommit
      subst h
      obtain ⟨-, txn, verdict, risk, -, -, rfl⟩ := hp.guard
      rfl

/-- A request that is paid for, in a run of fresh commits. -/
theorem states_follow_transitions_paid : ∃ c : Config,
    Reachable (machine Scenario.runtime)
      (freshCommits (Scenario.world (Scenario.policy "u" 200 10))) c ∧
    stateHistory .created 0 c.log = [.confirmed, .submitted, .authorized, .created] ∧
    Lawful (stateHistory .created 0 c.log) := by
  have hrun : executes Scenario.runtime { run := commitsFresh }
      (Scenario.world (Scenario.policy "u" 200 10))
      ([Scenario.request Scenario.firstOrder true] ++
        steps 0 (Scenario.toInsertion ++ oks 29 ++ [Scenario.confirmed] ++ oks 2))
      (fun c => stateHistory .created 0 c.log = [.confirmed, .submitted, .authorized, .created]) =
        true := by decide +kernel
  obtain ⟨c, hc, hhistory⟩ := exists_reachable_checked (freshCommits_checked _) rfl hrun
  exact ⟨c, hc, hhistory, states_follow_transitions _ _ c hc 0⟩

/-- The expiry sweep reads the authorized payment of a request that waited too long; the request
then commits its submission, and the sweep its expiry. -/
def sweepDuringSubmission : List (Label Job Env Outcome) :=
  [Scenario.request Scenario.firstOrder true] ++
    steps 0 (Scenario.toInsertion ++ oks 20) ++ [.act (.tick (seconds 400)),
      .spawn .expireStaleAuthorizations] ++ steps 1 (oks 3) ++ steps 0 (oks 1) ++ steps 1 (oks 1)

/-- A payment is expired after it was submitted, which no transition allows. -/
theorem expired_after_submission : ∃ c : Config, Reachable (machine Scenario.runtime) {} c ∧
    ∃ id, stateHistory .created id c.log = [.expired, .submitted, .authorized, .created] ∧
      ¬ Lawful (stateHistory .created id c.log) := by
  have hrun : executes Scenario.runtime {} (Scenario.world (Scenario.policy "u" 200 10))
      sweepDuringSubmission (fun c => stateHistory .created 0 c.log =
        [.expired, .submitted, .authorized, .created]) = true := by decide +kernel
  obtain ⟨c, hc, hhistory⟩ := exists_reachable hrun
  exact ⟨c, hc, 0, hhistory, by rw [hhistory]; decide⟩

end AgentPay.Properties
