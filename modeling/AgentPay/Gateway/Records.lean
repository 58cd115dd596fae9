import AgentPay.Gateway.Asking

/-!
# Where the stored answers come from

In every run each operation was performed at a moment, by a job that was permitted it
(`performed`). A record of the store was therefore stored by a request that had not found an answer
to its payload and that gave the stored answer on a verdict of its own (`recorded`), and so is the
answer of a replay (`answered_by`).
-/

set_option autoImplicit false

namespace AgentPay.Gateway

open AgentPay.Library AgentPay.Library.Machine AgentPay.Policies

section Runs

variable {R : Runtime} {D : Discipline} {c : Config}

/-- The moment of an operation: the configuration before it, and the job that performed it. -/
structure Moment (R : Runtime) (D : Discipline) (c : Config) (ev : Event) (older : List Event)
    (job : Job) (c₀ : Config) : Prop where
  reachable : Reachable (machine R) D c₀
  leads : Leads (machine R) D c₀ c
  log : c₀.log = older
  performed : ∃ w, c₀.world.perform ev.op ev.choice = some (w, ev.answer)
  permitted : Permits R job (seenBy ev.tid older) ev.op
  pending : ∃ next, c₀.threads[ev.tid]? = some ⟨job, .call ev.op next⟩
  discipline : D.run c₀ ev

/-- Every operation of the log has its moment. -/
theorem performed (hc : Reachable (machine R) D c) {newer older : List Event} {ev : Event}
    (hlog : c.log = newer ++ ev :: older) : ∃ job c₀, Moment R D c ev older job c₀ := by
  obtain ⟨c₀, w, job, next, hc₀, hleads, rfl, ht, hp, hd⟩ := hc.moment hlog
  exact ⟨job, c₀, hc₀, hleads, rfl, ⟨w, hp⟩, hc₀.permits (job_asks R) ht, ⟨next, ht⟩, hd⟩

/-- The thread of an operation has the job that performed it. -/
theorem Moment.job {ev : Event} {older : List Event} {job : Job} {c₀ : Config}
    (h : Moment R D c ev older job c₀) {thread : Thread Job Op Op.Val Exn Response}
    (ht : c.threads[ev.tid]? = some thread) : thread.job = job := by
  obtain ⟨next, hpending⟩ := h.pending
  obtain ⟨thread', ht', hjob⟩ := h.leads.job hpending
  cases ht.symm.trans ht'
  exact hjob

/-- What a thread has seen happened at a moment. -/
theorem moment_of_seen (hc : Reachable (machine R) D c) {tid : ℕ} {op : Op}
    {answer : Except Exn op.Val} (h : ⟨op, answer⟩ ∈ seenBy tid c.log) :
    ∃ newer choice older job c₀, c.log = newer ++ ⟨tid, op, choice, answer⟩ :: older ∧
      Moment R D c ⟨tid, op, choice, answer⟩ older job c₀ := by
  obtain ⟨ev, hev, rfl, heq⟩ := mem_seenBy.1 h
  cases heq
  obtain ⟨newer, older, hlog⟩ := List.append_of_mem hev
  obtain ⟨job, c₀, hmoment⟩ := performed hc hlog
  exact ⟨newer, ev.choice, older, job, c₀, hlog, hmoment⟩

end Runs

/-! ## The store -/

/-- Where an entry of the store comes from. -/
theorem World.lookup_apply {w : World} {op : Op} {key : String} {entry : Entry}
    (h : (w.apply op).kv.lookup key = some entry) :
    w.kv.lookup key = some entry ∨ (∃ ex, op = .set key entry.value ex) ∨
      ∃ token, entry.value = .lockToken token := by
  have hput : ∀ {key' : String} {entry' : Entry}, (putKey key' entry' w.kv).lookup key = some entry →
      w.kv.lookup key = some entry ∨ key' = key ∧ entry' = entry := by
    intro key' entry' h
    by_cases hkey : key = key'
    · subst hkey
      rw [lookup_putKey_self] at h
      exact .inr ⟨rfl, Option.some.inj h⟩
    · rw [lookup_putKey_of_ne hkey] at h
      exact .inl h
  cases op with
  | set key' value ex =>
      rcases hput h with h | ⟨rfl, rfl⟩
      · exact .inl h
      · exact .inr (.inl ⟨ex, rfl⟩)
  | setNx key' token ex =>
      simp only [World.apply] at h
      split at h
      · exact .inl h
      · rcases hput h with h | ⟨rfl, rfl⟩
        · exact .inl h
        · exact .inr (.inr ⟨token, rfl⟩)
  | deleteIfValue key' token =>
      simp only [World.apply] at h
      split at h
      · by_cases hkey : key = key'
        · subst hkey
          rw [lookup_removeKey_self] at h
          cases h
        · rw [lookup_removeKey_of_ne hkey] at h
          exact .inl h
      · exact .inl h
  | insertTransaction row =>
      simp only [World.apply] at h
      split at h <;> exact .inl h
  | commitState id target reference detail =>
      simp only [World.apply] at h
      split at h <;> exact .inl h
  | _ => exact .inl h

/-- The environment puts nothing into the store. -/
theorem World.lookup_environment {w : World} {env : Env} {key : String} {entry : Entry}
    (h : (w.environment env).kv.lookup key = some entry) : w.kv.lookup key = some entry := by
  cases env with
  | loseKey key' =>
      by_cases hkey : key = key'
      · subst hkey
        rw [World.environment, lookup_removeKey_self] at h
        cases h
      · rwa [World.environment, lookup_removeKey_of_ne hkey] at h
  | _ => exact h

section Records

variable {R : Runtime} {D : Discipline} {c : Config}

/-- An operation of the log stored the record. -/
def StoredIn (key payloadHash : String) (response : DecisionResponse) (log : List Event) : Prop :=
  ∃ newer ev older ex, log = newer ++ ev :: older ∧
    ev.op = .set key (.idempotencyRecord payloadHash response) ex

theorem StoredIn.cons {key payloadHash : String} {response : DecisionResponse} {log : List Event}
    (h : StoredIn key payloadHash response log) (ev : Event) :
    StoredIn key payloadHash response (ev :: log) := by
  obtain ⟨newer, ev', older, ex, rfl, hop⟩ := h
  exact ⟨ev :: newer, ev', older, ex, rfl, hop⟩

/-- Every record of the store was stored by an operation. -/
theorem stored_of_lookup (hstart : ∀ w, D.initial w → w.kv = [])
    (hc : Reachable (machine R) D c) {key payloadHash : String} {response : DecisionResponse}
    {expires : Time} (h : c.world.kv.lookup key =
      some ⟨.idempotencyRecord payloadHash response, expires⟩) :
    StoredIn key payloadHash response c.log := by
  induction hc generalizing expires with
  | initial hw =>
      rw [hstart _ hw] at h
      cases h
  | spawn job _ _ ih => exact ih h
  | act env _ _ ih => exact ih (World.lookup_environment h)
  | @run c tid job op next choice w answer _ _ hp _ ih =>
      rcases World.perform_world hp with rfl | rfl
      · rcases World.lookup_apply h with h | ⟨ex, rfl⟩ | ⟨token, htoken⟩
        · exact (ih h).cons _
        · exact ⟨[], _, c.log, ex, rfl, rfl⟩
        · cases htoken
      · exact (ih h).cons _

/-- A record that was read was stored before. -/
theorem stored_of_get (hstart : ∀ w, D.initial w → w.kv = []) {tid : ℕ} {key : String}
    {choice : Outcome} {payloadHash : String} {response : DecisionResponse} {older : List Event}
    {job : Job} {c₀ : Config} (h : Moment R D c ⟨tid, .get key, choice,
      .ok (some (.idempotencyRecord payloadHash response))⟩ older job c₀) :
    StoredIn key payloadHash response older := by
  obtain ⟨w, hp⟩ := h.performed
  obtain ⟨-, hanswer⟩ := World.perform_ok hp
  have hlookup : c₀.world.lookup key = some (.idempotencyRecord payloadHash response) := by
    cases choice <;> simp only [World.answer, World.value, Option.some.injEq, Except.ok.injEq,
      reduceCtorEq] at hanswer
    exact hanswer
  obtain ⟨entry, hentry, hvalue⟩ := Option.bind_eq_some_iff.1 hlookup
  split at hvalue
  · rw [← h.log]
    have hstored : c₀.world.kv.lookup key =
        some ⟨.idempotencyRecord payloadHash response, entry.expires⟩ := by
      rw [hentry, ← Option.some.inj hvalue]
    exact stored_of_lookup hstart h.reachable hstored
  · cases hvalue

/-- What a request under a verdict of its own leaves behind: its transaction, the verdict, and the
answer that carries it. -/
structure Authored (R : Runtime) (c : Config) (author : ℕ) (txn : CanonicalTransaction)
    (r : DecisionResponse) : Prop where
  request : ∃ intent credential execute, c.threads[author]?.map Thread.job =
    some (.paymentIntent intent credential execute) ∧ Works R intent txn (seenBy author c.log)
  replayed : r.replayed = false
  judged : ∃ verdict, Judged txn verdict (seenBy author c.log) ∧ r.decision = verdict.decision

/-- A record that was read was stored by a request that had found no answer to its payload; the
stored answer carries the verdict it was given. -/
theorem record_author (hstart : ∀ w, D.initial w → w.kv = []) (hc : Reachable (machine R) D c)
    {tid : ℕ} {key payloadHash : String} {stored : DecisionResponse} (hkey : ¬ CommonKey key)
    (hget : ⟨.get key, .ok (some (.idempotencyRecord payloadHash stored))⟩ ∈ seenBy tid c.log) :
    ∃ author txn, idemKey txn.userId txn.idempotencyKey = key ∧ txn.payloadHash = payloadHash ∧
      Authored R c author txn stored := by
  obtain ⟨newer, choice, older, job, c₀, hlog, hmoment⟩ := moment_of_seen hc hget
  obtain ⟨newer', ev, older', ex, rfl, hop⟩ := stored_of_get hstart hmoment
  rw [← List.cons_append, ← List.append_assoc] at hlog
  obtain ⟨job', c₁, hstored⟩ := performed hc hlog
  have hgrow : Extends (fun _ => True) (seenBy ev.tid older') (seenBy ev.tid c.log) := by
    rw [hlog]
    exact (extends_seenBy ev.tid [ev] older').trans (extends_seenBy ev.tid _ (ev :: older'))
  obtain ⟨next, hpending⟩ := hstored.pending
  obtain ⟨thread, hthread, hjob⟩ := hstored.leads.job hpending
  have hpermitted := hstored.permitted
  rw [hop] at hpermitted
  cases job' with
  | paymentIntent intent credential execute =>
      -- the operation is none beside the work, so it is the request's own
      obtain ⟨txn, hw, rfl, rfl, -, -, -, -, hfresh⟩ := hpermitted.resolve_left hkey
      refine ⟨ev.tid, txn, rfl, rfl, ⟨intent, credential, execute, ?_, hw.extends hgrow⟩,
        hfresh.replayed, ?_⟩
      · rw [hthread, Option.map_some, hjob]
      · obtain ⟨verdict, hjudged, hdecision, -⟩ := hfresh.judged
        exact ⟨verdict, hjudged.extends hgrow, hdecision⟩
  | _ => exact absurd hpermitted hkey

/-- The verdict an answer of the pipeline carries: the request's own, or that of the request whose
answer it repeats. -/
theorem answer_author (hstart : ∀ w, D.initial w → w.kv = []) (hc : Reachable (machine R) D c)
    {tid : ℕ} {intent : PaymentIntent} {credential : Credential} {execute : Bool}
    {r : DecisionResponse} (ht : c.threads[tid]? =
      some ⟨.paymentIntent intent credential execute, .ret (.ok (.decision r))⟩)
    (hdecision : r.decision ≠ .block) : Admitted credential intent (seenBy tid c.log) ∧
      ∃ txn author origin, Works R intent txn (seenBy tid c.log) ∧
        idemKey origin.userId origin.idempotencyKey = idemKey txn.userId txn.idempotencyKey ∧
        origin.payloadHash = txn.payloadHash ∧ (r.replayed = false → author = tid ∧ origin = txn) ∧
        ∃ stored, stored.decision = r.decision ∧ Authored R c author origin stored := by
  have hdecided : Decided R intent credential (seenBy tid c.log) r := hc.ended (job_asks R) ht
  cases hdecided with
  | refused hrefusal _ => exact absurd hrefusal.decision hdecision
  | @replayed txn stored ha hw hget =>
      obtain ⟨author, origin, hkey, hhash, hauthored⟩ :=
        record_author hstart hc (not_commonKey (idemKey_mem txn)) hget
      have hreplayed : (replayOf stored).replayed = true := rfl
      refine ⟨ha, txn, author, origin, hw, hkey, hhash, fun h => ?_, stored, rfl, hauthored⟩
      rw [hreplayed] at h
      cases h
  | @fresh txn _ ha hw hfresh =>
      obtain ⟨verdict, hjudged, hd, -⟩ := hfresh.judged
      refine ⟨ha, txn, tid, txn, hw, rfl, rfl, fun _ => ⟨rfl, rfl⟩, r, rfl,
        ⟨intent, credential, execute, ?_, hw⟩, hfresh.replayed, verdict, hjudged, hd⟩
      rw [ht, Option.map_some]

end Records

/-! ## The registries -/

section Registries

variable {R : Runtime} {D : Discipline} {c : Config}

/-- A policy that was read was bound to the delegation at that moment. -/
theorem policy_at (hc : Reachable (machine R) D c) {tid : ℕ} {delegationId : String}
    {policy : Option SpendingPolicy}
    (h : ⟨.getPolicy delegationId, .ok policy⟩ ∈ seenBy tid c.log) :
    ∃ c₀, Leads (machine R) D c₀ c ∧
      c₀.world.policies.find? (fun p => p.delegationId == delegationId) = policy := by
  obtain ⟨_, choice, _, _, c₀, _, hmoment⟩ := moment_of_seen hc h
  obtain ⟨w, hp⟩ := hmoment.performed
  obtain ⟨-, hanswer⟩ := World.perform_ok hp
  refine ⟨c₀, hmoment.leads, ?_⟩
  cases choice <;> simp only [World.answer, World.value, Option.some.injEq, Except.ok.injEq,
    reduceCtorEq] at hanswer
  exact hanswer

/-- An agent that was read was registered at that moment. -/
theorem agent_at (hc : Reachable (machine R) D c) {tid : ℕ} {agentId : String}
    {agent : Option AgentRegistration} (h : ⟨.getAgent agentId, .ok agent⟩ ∈ seenBy tid c.log) :
    ∃ c₀, Leads (machine R) D c₀ c ∧
      c₀.world.agents.find? (fun a => a.agentId == agentId) = agent := by
  obtain ⟨_, choice, _, _, c₀, _, hmoment⟩ := moment_of_seen hc h
  obtain ⟨w, hp⟩ := hmoment.performed
  obtain ⟨-, hanswer⟩ := World.perform_ok hp
  refine ⟨c₀, hmoment.leads, ?_⟩
  cases choice <;> simp only [World.answer, World.value, Option.some.injEq, Except.ok.injEq,
    reduceCtorEq] at hanswer
  exact hanswer

/-- The policy engine answered for itself. -/
theorem genuine_at (hc : Reachable (machine R) D c) {tid : ℕ} {input : PolicyInput}
    {answer : OpaAnswer} (h : ⟨.evaluatePolicy input, .ok answer⟩ ∈ seenBy tid c.log) :
    answer.Genuine input := by
  obtain ⟨_, choice, _, _, c₀, _, hmoment⟩ := moment_of_seen hc h
  obtain ⟨w, hp⟩ := hmoment.performed
  exact genuine_of_perform hp

end Registries

end AgentPay.Gateway
