import AgentPay.ControlPlane.Delegations
import AgentPay.Gateway.Asking
import AgentPay.Properties.Scenario

/-!
# How long a revocation holds

Calls of the control plane follow one another; each commits to the database, then writes the
revocation set, and may fail in between. Once a revocation has returned, the delegation stays in the
set until a call of `reinstate_delegation` or `upsert_policy` for it, which removes it as well. A
payment request that starts in this period, and looks at the set in it, is answered `BLOCK`
(`revocation_holds`). Whatever failed before, a call that returns leaves the flag of the policy and
the set as it says, until the next call for its delegation (`call_settles_delegation`).
-/

set_option autoImplicit false

namespace AgentPay.Properties

open AgentPay.Library AgentPay.Library.Machine AgentPay.Gateway AgentPay.ControlPlane

/-- What happens around the gateway apart from the calls of the control plane for delegations. -/
def besideDelegations : Env → Bool
  | .upsertPolicy _ | .revoke _ | .reinstate _ => false
  | _ => true

/-- The calls follow one another, over a gateway in a run. -/
def oneAfterAnother (R : Runtime) : AdminDiscipline where
  initial w := Reachable (machine R) {} w.gateway
  spawn c _ := ∀ thread ∈ c.threads, thread.prog.result?.isSome = true
  act _ l := ∀ env, l = .act env → besideDelegations env = true

/-- The call removes a delegation from the revocation set. -/
def lifts (delegationId : String) : AdminJob → Prop
  | .upsert policy => policy.delegationId = delegationId
  | .reinstate d => d = delegationId
  | .revoke _ => False

/-- A revocation has returned, and no call that ends its period was made since. -/
structure StandsRevoked (i : ℕ) (delegationId : String) (c : AdminConfig) : Prop where
  returned : c.threads[i]? = some ⟨.revoke delegationId, .ret (.ok ())⟩
  since : ∀ j thread, i < j → c.threads[j]? = some thread → ¬ lifts delegationId thread.job

/-- The request presents a token of the delegation and was answered. -/
def AnsweredFor (delegationId : String) (c : AdminConfig) (t : ℕ) (response : Response) : Prop :=
  ∃ intent claims execute, c.world.gateway.threads[t]? =
    some ⟨.paymentIntent intent (.signed claims) execute, .ret (.ok response)⟩ ∧
    claims.delegationId = some delegationId

/-- Every look of the request at the revocation set is in the earlier configuration. -/
def LookedBy (t : ℕ) (c c' : AdminConfig) : Prop :=
  ∀ ev ∈ c'.world.gateway.log, ev.tid = t → (∃ d, ev.op = .isRevoked d) →
    ev ∈ c.world.gateway.log

/-! ## The protocol of a call -/

/-- The delegation a call is about. -/
def delegationOf : AdminJob → String
  | .upsert policy => policy.delegationId
  | .revoke d => d
  | .reinstate d => d

/-- The call revokes its delegation. -/
def revokes : AdminJob → Bool
  | .revoke _ => true
  | _ => false

/-- The delegation an operation is about. -/
def about? : AdminOp → Option String
  | .mergePolicy policy => some policy.delegationId
  | .getPolicy d => some d
  | .commitRevoked d _ => some d
  | .sadd d => some d
  | .srem d => some d
  | .insertAdminAudit .. => none

/-- The call, whether it found a policy of its delegation, and whether it has left the flag of the
policy and the revocation set as it says. -/
structure AdminSession where
  job : AdminJob
  found : Bool := false
  committed : Bool := false
  written : Bool := false

/-- The session after an answer; where there is no policy there is no flag to commit. -/
def AdminSession.next (s : AdminSession) : (op : AdminOp) → Except AdminExn op.Val → AdminSession
  | .getPolicy _, .ok (some _) => { s with found := true }
  | .getPolicy _, .ok none => { s with committed := true }
  | .mergePolicy _, .ok _ => { s with found := true, committed := true }
  | .commitRevoked .., .ok _ => { s with committed := true }
  | .sadd _, .ok _ => { s with written := true }
  | .srem _, .ok _ => { s with written := true }
  | _, _ => s

/-- A call works on its own delegation, and writes what it says. -/
def AdminSession.guard (s : AdminSession) (op : AdminOp) : Prop :=
  (∀ d, about? op = some d → d = delegationOf s.job) ∧ match op with
    | .mergePolicy policy => policy.revoked = false ∧ revokes s.job = false
    | .commitRevoked _ revoked => revoked = revokes s.job
    | .sadd _ => revokes s.job = true
    | .srem _ => revokes s.job = false
    | _ => True

/-- A call adds the delegation it revokes, and removes one it lifts the revocation of. -/
def administering : Protocol AdminOp AdminOp.Val AdminExn AdminSession where
  guard := AdminSession.guard
  next := AdminSession.next

/-- A call that returned has written both stores. -/
def Returned (job : AdminJob) : Except AdminExn Unit → AdminSession → Prop
  | .ok _, s => s.committed = true ∧ s.written = true ∧ (revokes job = true → s.found = true)
  | .error _, _ => True

theorem follows_recordAdminAction (action target : String) (s : AdminSession)
    (Q : Except AdminExn Unit → AdminSession → Prop) (hQ : ∀ r, Q r s) :
    (recordAdminAction action target).Follows administering s Q := by
  rw [recordAdminAction, Prog.follows_recover]
  refine ⟨⟨(fun _ h => nomatch h), trivial⟩, fun answer => ?_⟩
  cases answer with
  | ok _ => exact hQ _
  | error e =>
      change Prog.Follows administering (if _ then _ else _) _ _
      split
      · exact hQ _
      · exact hQ _

/-- An operation of a call on its own delegation. -/
theorem guard_own {s : AdminSession} {op : AdminOp} (h : about? op = some (delegationOf s.job)) :
    ∀ d, about? op = some d → d = delegationOf s.job := by
  intro d hd
  exact Option.some.inj (hd.symm.trans h)

theorem follows_job (job : AdminJob) :
    job.start.Follows administering { job } (Returned job) := by
  cases job with
  | upsert policy =>
      refine Prog.Follows.perform (P := administering) ⟨guard_own rfl, rfl, rfl⟩ (fun _ => ?_)
        fun _ => trivial
      refine Prog.Follows.perform (P := administering) ⟨guard_own rfl, rfl⟩ (fun _ => ?_)
        fun _ => trivial
      refine follows_recordAdminAction _ _ _ _ fun r => ?_
      cases r with
      | ok _ => exact ⟨rfl, rfl, fun h => nomatch h⟩
      | error e => trivial
  | revoke d =>
      refine Prog.Follows.perform (P := administering) ⟨guard_own rfl, trivial⟩ (fun policy => ?_)
        fun _ => trivial
      cases policy with
      | none => trivial
      | some policy =>
          refine Prog.Follows.perform (P := administering) ⟨guard_own rfl, rfl⟩ (fun _ => ?_)
            fun _ => trivial
          refine Prog.Follows.perform (P := administering) ⟨guard_own rfl, rfl⟩ (fun _ => ?_)
            fun _ => trivial
          refine follows_recordAdminAction _ _ _ _ fun r => ?_
          cases r with
          | ok _ => exact ⟨rfl, rfl, fun _ => rfl⟩
          | error e => trivial
  | reinstate d =>
      refine Prog.Follows.perform (P := administering) ⟨guard_own rfl, trivial⟩ (fun policy => ?_)
        fun _ => trivial
      have hrest : ∀ s : AdminSession, s.job = .reinstate d → s.committed = true →
          ((do
            command (.srem d)
            recordAdminAction "delegation.reinstate" d) : AdminPy Unit).Follows
              administering s (Returned (.reinstate d)) := by
        intro s hs hcommitted
        refine Prog.Follows.perform (P := administering) ⟨guard_own ?_, ?_⟩ (fun _ => ?_)
          fun _ => trivial
        · rw [hs]
          rfl
        · rw [hs]
          rfl
        · refine follows_recordAdminAction _ _ _ _ fun r => ?_
          cases r with
          | ok _ => exact ⟨hcommitted, rfl, fun h => nomatch h⟩
          | error e => trivial
      cases policy with
      | none => exact hrest _ rfl rfl
      | some policy =>
          refine Prog.Follows.perform (P := administering) ⟨guard_own rfl, rfl⟩ (fun _ => ?_)
            fun _ => trivial
          exact hrest _ rfl rfl

/-! ## The gateway below the control plane -/

section Runs

variable {R : Runtime} {D : AdminDiscipline} {c c' : AdminConfig}

/-- A change of the world around the gateway is a step of the gateway. -/
theorem gateway_moves_act (g : Config) (env : Env) :
    Moves (machine R) {} g { g with world := g.world.environment env } :=
  .act env trivial

/-- An operation changes the world around the gateway, or leaves the gateway. -/
theorem apply_gateway (w : AdminWorld) (op : AdminOp) : (w.apply op).gateway = w.gateway ∨
    ∃ env, (w.apply op).gateway =
      { w.gateway with world := w.gateway.world.environment env } := by
  cases op with
  | getPolicy d => exact .inl rfl
  | insertAdminAudit action target => exact .inl rfl
  | mergePolicy policy => exact .inr ⟨.upsertPolicy policy, rfl⟩
  | sadd d => exact .inr ⟨.revoke d, rfl⟩
  | srem d => exact .inr ⟨.reinstate d, rfl⟩
  | commitRevoked d revoked =>
      change (w.withWorld (AdminWorld.commitFlag d revoked)).gateway = _ ∨ _
      cases hpolicy : w.gateway.world.policies.find? fun p => p.delegationId == d with
      | none =>
          left
          simp only [AdminWorld.withWorld, AdminWorld.commitFlag, hpolicy]
      | some policy =>
          right
          refine ⟨.upsertPolicy { policy with revoked := revoked }, ?_⟩
          simp only [AdminWorld.apply, AdminWorld.withWorld, AdminWorld.commitFlag, hpolicy]

/-- A performed operation took effect, or left the world. -/
theorem perform_admin {w w' : AdminWorld} {op : AdminOp} {o : AdminOutcome}
    {answer : Except AdminExn op.Val} (h : w.perform op o = some (w', answer)) :
    w' = w.apply op ∨ (w' = w ∧ ∀ a, answer ≠ .ok a) := by
  cases o with
  | ok =>
      cases h
      exact .inl rfl
  | fault e applied =>
      cases h
      cases applied with
      | true => exact .inl rfl
      | false => exact .inr ⟨rfl, fun a ha => nomatch ha⟩

/-- A step of the control plane is a run of the gateway. -/
theorem gateway_leads_of_moves (h : Moves (administration R) D c c') :
    Leads (machine R) {} c.world.gateway c'.world.gateway := by
  cases h with
  | spawn job hd => exact .refl
  | act l hd =>
      change Leads (machine R) {} c.world.gateway
        (((machine R).step {} c.world.gateway l).getD c.world.gateway)
      cases hstep : (machine R).step {} c.world.gateway l with
      | none => exact .refl
      | some g =>
          exact .single (.of_step ⟨fun _ _ => trivial, fun _ _ _ => trivial, fun _ _ _ => trivial⟩
            hstep)
  | @run tid job op next o w answer ht hp hd =>
      change Leads (machine R) {} c.world.gateway w.gateway
      rcases perform_admin hp with rfl | ⟨rfl, -⟩
      · rcases apply_gateway c.world op with heq | ⟨env, heq⟩
        · rw [heq]
        · rw [heq]
          exact .single (gateway_moves_act _ env)
      · exact .refl

/-- The gateway beside the calls is in a run. -/
theorem gateway_reachable_admin (hinit : ∀ w, D.initial w → Reachable (machine R) {} w.gateway)
    (hc : Reachable (administration R) D c) : Reachable (machine R) {} c.world.gateway := by
  induction hc with
  | initial hw => exact hinit _ hw
  | spawn job _ _ ih => exact ih
  | act l _ hd ih => exact ih.leads (gateway_leads_of_moves (.act l hd))
  | run _ ht hp hd ih => exact ih.leads (gateway_leads_of_moves (.run ht hp hd))

/-! ## One call after another -/

/-- A call that goes on is the last one. -/
theorem running_last (hc : Reachable (administration R) (oneAfterAnother R) c) {tid : ℕ}
    {job : AdminJob} {op : AdminOp} {next : Except AdminExn op.Val → AdminPy Unit}
    (ht : c.threads[tid]? = some ⟨job, .call op next⟩) : tid + 1 = c.threads.length := by
  induction hc generalizing tid job op with
  | initial _ => cases ht
  | @spawn c job' hc hd ih =>
      unfold Config.spawn at ht ⊢
      rw [List.length_append, List.length_singleton]
      rcases Nat.lt_or_ge tid c.threads.length with hlt | hge
      · rw [List.getElem?_append_left hlt] at ht
        cases hd _ (List.mem_of_getElem? ht)
      · have hbound := (List.getElem?_eq_some_iff.1 ht).1
        rw [List.length_append, List.length_singleton] at hbound
        omega
  | act l _ _ ih => exact ih ht
  | @run c tid₀ job₀ op₀ next₀ o w answer hc ht₀ hp hd ih =>
      unfold Config.advance at ht ⊢
      rw [List.length_set]
      by_cases hne : tid₀ = tid
      · subst hne
        exact ih ht₀
      · rw [List.getElem?_set_ne hne] at ht
        exact ih ht

/-- The worlds have the same policies and revocation set. -/
def SameRegistries (w w' : World) : Prop := w'.policies = w.policies ∧ w'.revoked = w.revoked

/-- What happens around the gateway apart from the calls leaves both. -/
theorem sameRegistries_beside (w : World) {env : Env} (h : besideDelegations env = true) :
    SameRegistries w (w.environment env) := by
  cases env <;> first
    | exact ⟨rfl, rfl⟩
    | cases h

/-- The gateway itself writes neither. -/
theorem sameRegistries_apply (w : World) (op : Op) : SameRegistries w (w.apply op) := by
  cases op
  case setNx key token ex =>
      simp only [World.apply]
      split <;> exact ⟨rfl, rfl⟩
  case deleteIfValue key token =>
      simp only [World.apply]
      split <;> exact ⟨rfl, rfl⟩
  case insertTransaction row =>
      simp only [World.apply]
      split <;> exact ⟨rfl, rfl⟩
  case commitState id target reference detail =>
      simp only [World.apply]
      split <;> exact ⟨rfl, rfl⟩
  all_goals exact ⟨rfl, rfl⟩

/-- A step beside the calls leaves both. -/
theorem sameRegistries_gatewayStep (w : AdminWorld) {l : Label Job Env Outcome}
    (hl : ∀ env, l = .act env → besideDelegations env = true) :
    SameRegistries w.gateway.world (w.gatewayStep R l).gateway.world := by
  change SameRegistries _ (((machine R).step {} w.gateway l).getD w.gateway).world
  cases hstep : (machine R).step {} w.gateway l with
  | none => exact ⟨rfl, rfl⟩
  | some g =>
      cases l with
      | spawn job =>
          cases hstep
          exact ⟨rfl, rfl⟩
      | act env =>
          cases hstep
          exact sameRegistries_beside _ (hl env rfl)
      | run tid o =>
          change SameRegistries _ g.world
          simp only [step] at hstep
          split at hstep
          case h_1 job op next ht =>
              obtain ⟨⟨w', answer⟩, hp, hstep⟩ := Option.bind_eq_some_iff.1 hstep
              cases hstep
              rcases World.perform_world hp with rfl | rfl
              · exact sameRegistries_apply _ op
              · exact ⟨rfl, rfl⟩
          case h_2 => cases hstep

/-- A delegation stays in the set under every operation but its removal. -/
theorem mem_revoked_apply (w : AdminWorld) {op : AdminOp} {d : String} (hop : op ≠ .srem d)
    (h : d ∈ w.gateway.world.revoked) : d ∈ (w.apply op).gateway.world.revoked := by
  cases op with
  | srem d' =>
      have hne : d ≠ d' := fun heq => hop (heq ▸ rfl)
      exact List.mem_filter.2 ⟨h, bne_iff_ne.2 hne⟩
  | sadd d' => exact List.mem_cons_of_mem _ h
  | commitRevoked d' revoked =>
      change d ∈ (AdminWorld.commitFlag d' revoked w.gateway.world).revoked
      rw [AdminWorld.commitFlag]
      split <;> exact h
  | mergePolicy policy => exact h
  | getPolicy d' => exact h
  | insertAdminAudit action target => exact h

/-- The session of a call. -/
abbrev adminSession (c : AdminConfig) (i : ℕ) : Option AdminSession :=
  c.session administering (fun job => { job }) i

theorem administering_job (s : AdminSession) (op : AdminOp) (answer : Except AdminExn op.Val) :
    (administering.next s op answer).job = s.job := by
  cases op
  case getPolicy d =>
      cases answer with
      | error e => rfl
      | ok policy => cases policy <;> rfl
  all_goals cases answer <;> rfl

/-- Only a call that lifts a revocation removes its delegation. -/
theorem lifts_of_srem {s : AdminSession} {d : String} (h : administering.guard s (.srem d)) :
    lifts d s.job := by
  obtain ⟨howner, hlifts⟩ : (∀ d', about? (.srem d) = some d' → d' = delegationOf s.job) ∧
    revokes s.job = false := h
  have hd := howner d rfl
  obtain ⟨job, found, committed, written⟩ := s
  cases job with
  | upsert policy => exact hd.symm
  | reinstate d' => exact hd.symm
  | revoke d' => cases hlifts

/-- A call that adds a delegation revokes it. -/
theorem revokes_of_sadd {s : AdminSession} {d : String} (h : administering.guard s (.sadd d)) :
    s.job = .revoke d := by
  obtain ⟨howner, hrevokes⟩ : (∀ d', about? (.sadd d) = some d' → d' = delegationOf s.job) ∧
    revokes s.job = true := h
  have hd := howner d rfl
  obtain ⟨job, found, committed, written⟩ := s
  cases job with
  | revoke d' => exact congrArg AdminJob.revoke hd.symm
  | upsert policy => cases hrevokes
  | reinstate d' => cases hrevokes

/-- The set is written by the operations that add and remove. -/
theorem written_next {s : AdminSession} {op : AdminOp} {answer : Except AdminExn op.Val}
    (h : (administering.next s op answer).written = true) : s.written = true ∨
      ((∃ d, op = .sadd d ∨ op = .srem d) ∧ ∃ a, answer = .ok a) := by
  cases op
  case getPolicy d =>
      cases answer with
      | error e => exact .inl h
      | ok policy => cases policy <;> exact .inl h
  case sadd d =>
      cases answer with
      | error e => exact .inl h
      | ok a => exact .inr ⟨⟨d, .inl rfl⟩, a, rfl⟩
  case srem d =>
      cases answer with
      | error e => exact .inl h
      | ok a => exact .inr ⟨⟨d, .inr rfl⟩, a, rfl⟩
  all_goals cases answer <;> exact .inl h

/-- The session of a thread is about its job. -/
theorem adminSession_job {i : ℕ} {s : AdminSession} (hs : adminSession c i = some s) :
    ∃ thread, c.threads[i]? = some thread ∧ s.job = thread.job := by
  obtain ⟨thread, hthread, rfl⟩ := Option.map_eq_some_iff.1 hs
  refine ⟨thread, hthread, ?_⟩
  induction c.log with
  | nil => rfl
  | cons ev log ih =>
      simp only [Machine.replay]
      split
      · exact (administering_job _ _ _).trans ih
      · exact ih

/-- A revocation that wrote the set keeps its delegation there until a call lifts it. -/
def KeepsSet (c : AdminConfig) : Prop :=
  ∀ i s d, adminSession c i = some s → s.job = .revoke d → s.written = true →
    (∀ (j : ℕ) thread, i < j → c.threads[j]? = some thread → ¬ lifts d thread.job) →
    d ∈ c.world.gateway.world.revoked

theorem KeepsSet.advance (hc : Reachable (administration R) (oneAfterAnother R) c)
    (h : KeepsSet c) {tid : ℕ} {s : AdminSession} {job : AdminJob} {op : AdminOp}
    {next : Except AdminExn op.Val → AdminPy Unit} {o : AdminOutcome} {w : AdminWorld}
    {answer : Except AdminExn op.Val} (ht : c.threads[tid]? = some ⟨job, .call op next⟩)
    (hp : Performs (administration R) (oneAfterAnother R) administering (fun job => { job })
      c tid s op o w answer)
    (heq : (c.advance ⟨job, next answer⟩ w ⟨tid, op, o, answer⟩).session administering
      (fun job => { job }) = Function.update (adminSession c) tid
        (some (administering.next s op answer))) :
    KeepsSet (c.advance ⟨job, next answer⟩ w ⟨tid, op, o, answer⟩) := by
  intro i s' d hs' hjob hwritten hsince
  change d ∈ w.gateway.world.revoked
  have hmove : Moves (administration R) (oneAfterAnother R) c
      (c.advance ⟨job, next answer⟩ w ⟨tid, op, o, answer⟩) := .run ht hp.perform hp.discipline
  have hbefore : ∀ (j : ℕ) thread, i < j → c.threads[j]? = some thread →
      ¬ lifts d thread.job := by
    intro j thread hij hj
    obtain ⟨thread', hj', hsame⟩ := hmove.job hj
    exact hsame ▸ hsince j thread' hij hj'
  -- an operation other than its removal keeps the delegation in the set
  have hkept : op ≠ .srem d → d ∈ c.world.gateway.world.revoked → d ∈ w.gateway.world.revoked := by
    intro hop hmem
    rcases perform_admin hp.perform with rfl | ⟨rfl, -⟩
    · exact mem_revoked_apply _ hop hmem
    · exact hmem
  rw [adminSession, heq, Function.update_apply] at hs'
  split at hs'
  · rename_i hi
    cases hs'
    rw [administering_job] at hjob
    have hstays : op ≠ .srem d := by
      rintro rfl
      have hlifts := lifts_of_srem hp.guard
      rw [hjob] at hlifts
      exact hlifts
    rcases written_next hwritten with hwritten | ⟨⟨d', hop⟩, a, rfl⟩
    · exact hkept hstays (h i s d (hi ▸ hp.session) hjob hwritten hbefore)
    · rcases hop with rfl | rfl
      · -- the revocation writes the set now
        cases hjob.symm.trans (revokes_of_sadd hp.guard)
        rcases perform_admin hp.perform with rfl | ⟨-, hfailed⟩
        · exact List.mem_cons_self
        · exact absurd rfl (hfailed a)
      · have hlifts := lifts_of_srem hp.guard
        rw [hjob] at hlifts
        exact hlifts.elim
  · rename_i hi
    refine hkept ?_ (h i s' d hs' hjob hwritten hbefore)
    rintro rfl
    -- a call that removes the delegation was made after the revocation
    have hlast := running_last hc ht
    obtain ⟨revocation, hrevocation, -⟩ := adminSession_job hs'
    obtain ⟨thread, hthread, hsame⟩ := adminSession_job hp.session
    have hi' := (List.getElem?_eq_some_iff.1 hrevocation).1
    refine hbefore tid thread (by omega) hthread ?_
    rw [← hsame]
    exact lifts_of_srem hp.guard

/-- **While no call lifts it, a revocation that wrote the set stands.** -/
theorem keepsSet (hc : Reachable (administration R) (oneAfterAnother R) c) : KeepsSet c := by
  refine Reachable.invariant administering (fun job => { job }) follows_job (I := KeepsSet)
    ?_ ?_ ?_ ?_ hc
  · intro w _ i s d hs
    cases hs
  · intro c job hc ih _ heq i s d hs hjob hwritten hsince
    rw [adminSession, heq, Function.update_apply] at hs
    split at hs
    · cases hs
      cases hwritten
    · refine ih i s d hs hjob hwritten fun j thread hij hj => hsince j thread hij ?_
      rw [Config.spawn, List.getElem?_append_left (List.getElem?_eq_some_iff.1 hj).1, hj]
  · intro c l _ ih hd i s d hs hjob hwritten hsince
    change d ∈ (c.world.gatewayStep R l).gateway.world.revoked
    rw [(sameRegistries_gatewayStep c.world hd).2]
    exact ih i s d hs hjob hwritten hsince
  · exact fun c tid s job op next o w answer hc ih ht hp heq => ih.advance hc ht hp heq

/-- While a revocation stands, its delegation is in the set. -/
theorem mem_revoked_of_stands (hc : Reachable (administration R) (oneAfterAnother R) c) {i : ℕ}
    {d : String} (h : StandsRevoked i d c) : d ∈ c.world.gateway.world.revoked := by
  obtain ⟨s, hs, -, hwritten, -⟩ :=
    hc.post administering (fun job => { job }) follows_job h.returned
  obtain ⟨thread, hthread, hjob⟩ := adminSession_job hs
  rw [h.returned, Option.some.injEq] at hthread
  subst hthread
  exact keepsSet hc i s d hs hjob hwritten h.since

/-! ## Both stores -/

/-- The policy of a delegation. -/
abbrev policyOf (w : AdminWorld) (d : String) : Option SpendingPolicy :=
  w.gateway.world.policies.find? fun p => p.delegationId == d

/-- The policy of a delegation after one was written. -/
theorem find_upsert (policy : SpendingPolicy) (policies : List SpendingPolicy) (d : String) :
    (policy :: policies.filter fun q => q.delegationId != policy.delegationId).find?
      (fun p => p.delegationId == d) =
      if policy.delegationId = d then some policy
      else policies.find? fun p => p.delegationId == d := by
  rw [List.find?_cons]
  by_cases hd : policy.delegationId = d
  · simp only [hd, beq_self_eq_true, if_true]
  · simp only [beq_false_of_ne hd, if_neg hd, List.find?_filter]
    congr 1
    funext q
    by_cases hq : q.delegationId = d
    · simp [hq, Ne.symm hd]
    · simp [hq]

/-- The policy after its flag was committed. -/
theorem policyOf_commitFlag (w : World) (d d' : String) (revoked : Bool) :
    (AdminWorld.commitFlag d' revoked w).policies.find? (fun p => p.delegationId == d) =
      if d' = d then (w.policies.find? fun p => p.delegationId == d).map fun policy =>
        { policy with revoked := revoked }
      else w.policies.find? fun p => p.delegationId == d := by
  cases hpolicy : w.policies.find? fun p => p.delegationId == d' with
  | none =>
      simp only [AdminWorld.commitFlag, hpolicy]
      split
      · rename_i hd
        rw [← hd, hpolicy]
        rfl
      · rfl
  | some policy =>
      simp only [AdminWorld.commitFlag, hpolicy]
      obtain rfl : policy.delegationId = d' := by simpa using List.find?_some hpolicy
      refine (find_upsert { policy with revoked := revoked } w.policies d).trans ?_
      change (if policy.delegationId = d then _ else _) = _
      split
      · rename_i hd
        rw [← hd, hpolicy]
        rfl
      · rfl

/-- The stores say the same about a delegation. -/
def SameOn (d : String) (w w' : AdminWorld) : Prop :=
  policyOf w' d = policyOf w d ∧
    (d ∈ w'.gateway.world.revoked ↔ d ∈ w.gateway.world.revoked)

/-- An operation on another delegation changes nothing about this one. -/
theorem sameOn_apply (w : AdminWorld) {op : AdminOp} {d : String} (hop : about? op ≠ some d) :
    SameOn d w (w.apply op) := by
  cases op with
  | getPolicy d' => exact ⟨rfl, Iff.rfl⟩
  | insertAdminAudit action target => exact ⟨rfl, Iff.rfl⟩
  | mergePolicy policy =>
      have hd : policy.delegationId ≠ d := fun h => hop (congrArg some h)
      exact ⟨(find_upsert policy _ d).trans (if_neg hd), Iff.rfl⟩
  | commitRevoked d' revoked =>
      have hd : d' ≠ d := fun h => hop (congrArg some h)
      refine ⟨(policyOf_commitFlag _ d d' revoked).trans (if_neg hd), ?_⟩
      change d ∈ (AdminWorld.commitFlag d' revoked w.gateway.world).revoked ↔ _
      rw [AdminWorld.commitFlag]
      split <;> exact Iff.rfl
  | sadd d' =>
      have hd : d ≠ d' := fun h => hop (congrArg some h.symm)
      exact ⟨rfl, List.mem_cons.trans (or_iff_right hd)⟩
  | srem d' =>
      have hd : d ≠ d' := fun h => hop (congrArg some h.symm)
      exact ⟨rfl, List.mem_filter.trans (and_iff_left (bne_iff_ne.2 hd))⟩

theorem sameOn_perform {w w' : AdminWorld} {op : AdminOp} {o : AdminOutcome}
    {answer : Except AdminExn op.Val} (h : w.perform op o = some (w', answer)) {d : String}
    (hop : about? op ≠ some d) : SameOn d w w' := by
  rcases perform_admin h with rfl | ⟨rfl, -⟩
  · exact sameOn_apply w hop
  · exact ⟨rfl, Iff.rfl⟩

/-- What a call has committed and written stands. -/
structure SettledBy (w : AdminWorld) (s : AdminSession) : Prop where
  flag : s.committed = true → ∀ policy, policyOf w (delegationOf s.job) = some policy →
    policy.revoked = revokes s.job
  found : s.found = true → (policyOf w (delegationOf s.job)).isSome = true
  set : s.written = true →
    (delegationOf s.job ∈ w.gateway.world.revoked ↔ revokes s.job = true)

theorem SettledBy.same {w w' : AdminWorld} {s : AdminSession} (h : SettledBy w s)
    (hsame : SameOn (delegationOf s.job) w w') : SettledBy w' s where
  flag hcommitted policy hpolicy := h.flag hcommitted policy (hsame.1.symm.trans hpolicy)
  found hfound := by
    rw [hsame.1]
    exact h.found hfound
  set hwritten := hsame.2.trans (h.set hwritten)

/-- An operation of the call that takes effect. -/
theorem SettledBy.apply {w : AdminWorld} {s : AdminSession} {op : AdminOp} (h : SettledBy w s)
    (hguard : administering.guard s op) :
    SettledBy (w.apply op) (administering.next s op (.ok (w.value op))) := by
  obtain ⟨howner, hsays⟩ := hguard
  cases op with
  | insertAdminAudit action target => exact h.same (sameOn_apply w nofun)
  | getPolicy d =>
      obtain rfl := howner d rfl
      change SettledBy w (s.next (.getPolicy (delegationOf s.job)) (.ok (policyOf w _)))
      cases hpolicy : policyOf w (delegationOf s.job) with
      | none => exact ⟨fun _ policy h => (nomatch hpolicy.symm.trans h), h.found, h.set⟩
      | some policy =>
          exact ⟨h.flag, fun _ => Option.isSome_iff_exists.2 ⟨policy, hpolicy⟩, h.set⟩
  | mergePolicy policy =>
      obtain ⟨hrevoked, hrevokes⟩ := hsays
      have hpolicy : policyOf (w.apply (.mergePolicy policy)) (delegationOf s.job) =
          some policy := (find_upsert policy _ _).trans (if_pos (howner _ rfl))
      refine ⟨fun _ policy' h' => ?_, fun _ => Option.isSome_iff_exists.2 ⟨policy, hpolicy⟩,
        h.set⟩
      cases hpolicy.symm.trans h'
      rw [hrevoked]
      exact hrevokes.symm
  | commitRevoked d revoked =>
      obtain rfl := howner d rfl
      have hpolicy : policyOf (w.apply (.commitRevoked (delegationOf s.job) revoked))
          (delegationOf s.job) = (policyOf w (delegationOf s.job)).map fun policy =>
            { policy with revoked := revoked } :=
        (policyOf_commitFlag _ _ _ _).trans (if_pos rfl)
      refine ⟨fun _ policy' h' => ?_, fun hfound => ?_, fun hwritten => ?_⟩
      · obtain ⟨policy, -, rfl⟩ := Option.map_eq_some_iff.1 (hpolicy.symm.trans h')
        exact hsays
      · change (policyOf _ (delegationOf s.job)).isSome = true
        rw [hpolicy, Option.isSome_map]
        exact h.found hfound
      · refine Iff.trans ?_ (h.set hwritten)
        change _ ∈ (AdminWorld.commitFlag _ revoked w.gateway.world).revoked ↔ _
        rw [AdminWorld.commitFlag]
        split <;> exact Iff.rfl
  | sadd d =>
      obtain rfl := howner d rfl
      exact ⟨h.flag, h.found, fun _ => iff_of_true List.mem_cons_self hsays⟩
  | srem d =>
      obtain rfl := howner d rfl
      refine ⟨h.flag, h.found, fun _ => iff_of_false (fun hmem => ?_) fun hrevokes => ?_⟩
      · exact bne_iff_ne.1 (List.mem_filter.1 hmem).2 rfl
      · cases hsays.symm.trans hrevokes

/-- What stands after an answer stood of the call before it as well. -/
theorem SettledBy.of_next {w : AdminWorld} {s : AdminSession} {op : AdminOp} {a : op.Val}
    (h : SettledBy w (administering.next s op (.ok a))) : SettledBy w s := by
  cases op
  case getPolicy d =>
      cases a with
      | none => exact ⟨fun _ => h.flag rfl, h.found, h.set⟩
      | some policy => exact ⟨h.flag, fun _ => h.found rfl, h.set⟩
  case mergePolicy policy => exact ⟨fun _ => h.flag rfl, fun _ => h.found rfl, h.set⟩
  case commitRevoked d revoked => exact ⟨fun _ => h.flag rfl, h.found, h.set⟩
  case sadd d => exact ⟨h.flag, h.found, fun _ => h.set rfl⟩
  case srem d => exact ⟨h.flag, h.found, fun _ => h.set rfl⟩
  case insertAdminAudit action target => exact h

/-- An operation of the call, whether it fails or not. -/
theorem SettledBy.perform {w w' : AdminWorld} {s : AdminSession} {op : AdminOp}
    {o : AdminOutcome} {answer : Except AdminExn op.Val} (h : SettledBy w s)
    (hguard : administering.guard s op) (hp : w.perform op o = some (w', answer)) :
    SettledBy w' (administering.next s op answer) := by
  cases o with
  | ok =>
      cases hp
      exact h.apply hguard
  | fault e applied =>
      cases hp
      have hnext : administering.next s op (.error e) = s := by cases op <;> rfl
      rw [hnext]
      cases applied with
      | true => exact (h.apply hguard).of_next
      | false => exact h

/-- What a call has committed and written stands until the next call for its delegation. -/
theorem settledBy_of_session (hc : Reachable (administration R) (oneAfterAnother R) c) {i : ℕ}
    {s : AdminSession} (hs : adminSession c i = some s)
    (hsince : ∀ (j : ℕ) thread, i < j → c.threads[j]? = some thread →
      delegationOf thread.job ≠ delegationOf s.job) : SettledBy c.world s := by
  refine Reachable.invariant administering (fun job => { job }) follows_job
    (I := fun c => ∀ i s, adminSession c i = some s →
      (∀ (j : ℕ) thread, i < j → c.threads[j]? = some thread →
        delegationOf thread.job ≠ delegationOf s.job) → SettledBy c.world s) ?_ ?_ ?_ ?_ hc i s hs
    hsince
  · intro w _ i s hs
    cases hs
  · intro c job hc ih _ heq i s hs hsince
    rw [adminSession, heq, Function.update_apply] at hs
    split at hs
    · cases hs
      exact ⟨nofun, nofun, nofun⟩
    · refine ih i s hs fun j thread hij hj => hsince j thread hij ?_
      rw [Config.spawn, List.getElem?_append_left (List.getElem?_eq_some_iff.1 hj).1, hj]
  · intro c l _ ih hd i s hs hsince
    obtain ⟨hpolicies, hrevoked⟩ := sameRegistries_gatewayStep (R := R) c.world hd
    refine (ih i s hs hsince).same ⟨?_, ?_⟩
    · change List.find? _ (c.world.gatewayStep R l).gateway.world.policies = _
      rw [hpolicies]
    · change _ ∈ (c.world.gatewayStep R l).gateway.world.revoked ↔ _
      rw [hrevoked]
  · intro c tid s₀ job op next o w answer hc ih ht hp heq i s hs hsince
    have hmove : Moves (administration R) (oneAfterAnother R) c
        (c.advance ⟨job, next answer⟩ w ⟨tid, op, o, answer⟩) := .run ht hp.perform hp.discipline
    rw [adminSession, heq, Function.update_apply] at hs
    split at hs
    · rename_i hi
      cases hs
      refine (ih i s₀ (hi ▸ hp.session) fun j thread hij hj => ?_).perform hp.guard hp.perform
      obtain ⟨thread', hj', hsame⟩ := hmove.job hj
      rw [administering_job] at hsince
      exact hsame ▸ hsince j thread' hij hj'
    · rename_i hi
      have hbefore : ∀ (j : ℕ) thread, i < j → c.threads[j]? = some thread →
          delegationOf thread.job ≠ delegationOf s.job := by
        intro j thread hij hj
        obtain ⟨thread', hj', hsame⟩ := hmove.job hj
        exact hsame ▸ hsince j thread' hij hj'
      refine (ih i s hs hbefore).same (sameOn_perform hp.perform fun habout => ?_)
      -- the call that goes on came later, and is about another delegation
      obtain ⟨thread, hthread, -⟩ := adminSession_job hs
      obtain ⟨running, hrunning, hjob⟩ := adminSession_job hp.session
      have hlast := running_last hc ht
      have hi' := (List.getElem?_eq_some_iff.1 hthread).1
      have hother := hbefore tid running (by omega) hrunning
      rw [← hjob] at hother
      exact hother (hp.guard.1 _ habout).symm

/-! ## Looks at the set -/

/-- A call that has ended stays so. -/
theorem ended_of_moves {D : AdminDiscipline} (hmove : Moves (administration R) D c c') {i : ℕ}
    {job : AdminJob} {r : Except AdminExn Unit} (h : c.threads[i]? = some ⟨job, .ret r⟩) :
    c'.threads[i]? = some ⟨job, .ret r⟩ := by
  cases hmove with
  | spawn job' hd =>
      rw [Config.spawn, List.getElem?_append_left (List.getElem?_eq_some_iff.1 h).1, h]
  | act l hd => exact h
  | @run tid job' op next o w answer ht hp hd =>
      rw [Config.advance, List.getElem?_set_ne, h]
      rintro rfl
      cases ht.symm.trans h

/-- What stands later has stood since. -/
theorem StandsRevoked.before {D : AdminDiscipline} (hmove : Moves (administration R) D c c')
    {i : ℕ} {d : String}
    (hreturned : c.threads[i]? = some ⟨.revoke d, .ret (.ok ())⟩)
    (h : StandsRevoked i d c') : StandsRevoked i d c where
  returned := hreturned
  since j thread hij hj := by
    obtain ⟨thread', hj', hsame⟩ := hmove.job hj
    exact hsame ▸ h.since j thread' hij hj'

/-- What a step beside the calls adds to the log of the gateway was answered in its world. -/
theorem log_gatewayStep (w : AdminWorld) (l : Label Job Env Outcome) {ev : Event}
    (hev : ev ∈ (w.gatewayStep R l).gateway.log) : ev ∈ w.gateway.log ∨
      ∃ w', w.gateway.world.perform ev.op ev.choice = some (w', ev.answer) := by
  change ev ∈ (((machine R).step {} w.gateway l).getD w.gateway).log at hev
  cases hstep : (machine R).step {} w.gateway l with
  | none =>
      rw [hstep] at hev
      exact .inl hev
  | some g =>
      rw [hstep] at hev
      have hmove : Moves (machine R) ({} : Discipline) w.gateway g :=
        .of_step ⟨fun _ _ => trivial, fun _ _ _ => trivial, fun _ _ _ => trivial⟩ hstep
      cases hmove with
      | spawn job hd => exact .inl hev
      | act env hd => exact .inl hev
      | run ht hp hd =>
          rcases List.mem_cons.1 hev with rfl | hev
          · exact .inr ⟨_, hp⟩
          · exact .inl hev

/-- A look at the set finds what is in it. -/
theorem isRevoked_ok {w w' : World} {d : String} {o : Outcome} {found : Bool}
    (h : w.perform (.isRevoked d) o = some (w', .ok found)) : found = decide (d ∈ w.revoked) := by
  obtain ⟨-, ha⟩ := World.perform_ok h
  cases o <;> simp only [World.answer, World.value, reduceCtorEq, Option.some.injEq,
    Except.ok.injEq] at ha
  exact ha.symm

/-- No look in the period finds the delegation missing. -/
theorem looks_of_stands (hc : Reachable (administration R) (oneAfterAnother R) c) {i : ℕ}
    {d : String} (hstands : StandsRevoked i d c)
    (hleads : Leads (administration R) (oneAfterAnother R) c c') (h : StandsRevoked i d c')
    {ev : Event} (hev : ev ∈ c'.world.gateway.log)
    (hfound : (⟨ev.op, ev.answer⟩ : (op : Op) × Except Exn op.Val) = ⟨.isRevoked d, .ok false⟩) :
    ev ∈ c.world.gateway.log := by
  induction hleads with
  | refl => exact hev
  | @tail c₁ c₂ hleads hmove ih =>
      have hreturned : c₁.threads[i]? = some ⟨.revoke d, .ret (.ok ())⟩ := by
        clear ih hmove h hev
        induction hleads with
        | refl => exact hstands.returned
        | tail _ hmove ih => exact ended_of_moves hmove ih
      have hbefore := h.before hmove hreturned
      refine ih hbefore ?_
      have hset := mem_revoked_of_stands (hc.leads hleads) hbefore
      cases hmove with
      | spawn job hd => exact hev
      | act l hd =>
          rcases log_gatewayStep c₁.world l hev with hev | ⟨w', hp⟩
          · exact hev
          · -- the look was answered while the delegation was in the set
            obtain ⟨tid, op, o, answer⟩ := ev
            cases hfound
            have hmissing := isRevoked_ok hp
            rw [decide_eq_true hset] at hmissing
            cases hmissing
      | @run tid job op next o w answer ht hp hd =>
          change ev ∈ w.gateway.log at hev
          rcases perform_admin hp with rfl | ⟨rfl, -⟩
          · rcases apply_gateway c₁.world op with heq | ⟨env, heq⟩
            · rwa [heq] at hev
            · rwa [heq] at hev
          · exact hev

end Runs

/-- **A call that returned leaves both stores as it says, whatever failed before it, until the next
call for its delegation.** -/
theorem call_settles_delegation {R : Runtime} {c : AdminConfig}
    (hc : Reachable (administration R) (oneAfterAnother R) c) {i : ℕ} {job : AdminJob}
    (hreturned : c.threads[i]? = some ⟨job, .ret (.ok ())⟩)
    (hsince : ∀ (j : ℕ) thread, i < j → c.threads[j]? = some thread →
      delegationOf thread.job ≠ delegationOf job) :
    (delegationOf job ∈ c.world.gateway.world.revoked ↔ revokes job = true) ∧
      ((∃ policy, policyOf c.world (delegationOf job) = some policy ∧ policy.revoked = true) ↔
        revokes job = true) := by
  obtain ⟨s, hs, hcommitted, hwritten, hfound⟩ :=
    hc.post administering (fun job => { job }) follows_job hreturned
  obtain ⟨thread, hthread, hjob⟩ := adminSession_job hs
  rw [hreturned, Option.some.injEq] at hthread
  subst hthread
  change s.job = job at hjob
  subst hjob
  have hsettled := settledBy_of_session hc hs hsince
  refine ⟨hsettled.set hwritten, ?_, fun hrevokes => ?_⟩
  · rintro ⟨policy, hpolicy, hrevoked⟩
    exact (hsettled.flag hcommitted policy hpolicy).symm.trans hrevoked
  · obtain ⟨policy, hpolicy⟩ := Option.isSome_iff_exists.1 (hsettled.found (hfound hrevokes))
    exact ⟨policy, hpolicy, (hsettled.flag hcommitted policy hpolicy).trans hrevokes⟩

/-- **A request that starts while a delegation is revoked, and looks at the revocation set before a
call lifts that, is answered `BLOCK`.** -/
theorem revocation_holds {R : Runtime} {i : ℕ} {d : String} {c₁ c₂ c₃ : AdminConfig} {t : ℕ}
    {response : Response} (hc₁ : Reachable (administration R) (oneAfterAnother R) c₁)
    (h₁₂ : Leads (administration R) (oneAfterAnother R) c₁ c₂)
    (h₂₃ : Leads (administration R) (oneAfterAnother R) c₂ c₃) (hstands₁ : StandsRevoked i d c₁)
    (hstands₂ : StandsRevoked i d c₂) (hstart : c₁.world.gateway.threads.length ≤ t)
    (hlooked : LookedBy t c₂ c₃) (hanswered : AnsweredFor d c₃ t response) :
    response.isBlock = true := by
  obtain ⟨intent, claims, execute, hthread, hd⟩ := hanswered
  have hc₃ := gateway_reachable_admin (fun w hw => hw) ((hc₁.leads h₁₂).leads h₂₃)
  have htestifies := hc₃.ended (job_asks R) hthread
  -- an answer other than a refusal comes after a look that did not find the delegation
  have hrefused : ¬ Admitted (.signed claims) intent (seenBy t c₃.world.gateway.log) := by
    rintro ⟨claims', now, hclaims, -, -, hdelegation, -, -, -, hlook⟩
    cases hclaims
    cases hd.symm.trans hdelegation
    obtain ⟨ev, hev, htid, hfound⟩ := mem_seenBy.1 hlook
    have hev₂ := hlooked ev hev htid ⟨_, (Sigma.mk.inj hfound).1⟩
    have hev₁ := looks_of_stands hc₁ hstands₁ h₁₂ hstands₂ hev₂ hfound
    have hc₁' := gateway_reachable_admin (fun w hw => hw) hc₁
    have hbound := hc₁'.proper ev hev₁
    omega
  cases response with
  | decision r =>
      cases htestifies with
      | refused hr _ => exact decide_eq_true hr.decision
      | replayed ha _ _ => exact absurd ha hrefused
      | fresh ha _ _ => exact absurd ha hrefused
  | failClosed paymentAuthorizationId => rfl
  | _ => exact htestifies.elim

/-! ## Two runs -/

instance (delegationId : String) : DecidablePred (lifts delegationId)
  | .upsert policy => inferInstanceAs (Decidable (policy.delegationId = delegationId))
  | .reinstate d => inferInstanceAs (Decidable (d = delegationId))
  | .revoke _ => inferInstanceAs (Decidable False)

/-- Checks that the calls follow one another. -/
def inOrder (c : AdminConfig) : Label AdminJob (Label Job Env Outcome) AdminOutcome → Bool
  | .spawn _ => c.threads.all fun thread => thread.prog.result?.isSome
  | .act (.act env) => besideDelegations env
  | _ => true

theorem admits_of_inOrder (R : Runtime) (c : AdminConfig)
    (l : Label AdminJob (Label Job Env Outcome) AdminOutcome) (h : inOrder c l = true) :
    (oneAfterAnother R).Admits c l := by
  cases l with
  | spawn job => exact List.all_eq_true.1 h
  | act l =>
      rintro env rfl
      exact h
  | run tid o => exact fun _ _ => trivial

/-- The revocation that has returned. -/
def returned? (c : AdminConfig) (i : ℕ) : Option String :=
  match c.threads[i]? with
  | some ⟨.revoke d, .ret (.ok ())⟩ => some d
  | _ => none

theorem thread_of_returned {c : AdminConfig} {i : ℕ} {d : String} (h : returned? c i = some d) :
    c.threads[i]? = some ⟨.revoke d, .ret (.ok ())⟩ := by
  rw [returned?] at h
  split at h
  case h_1 d' hthread =>
      cases h
      exact hthread
  case h_2 => cases h

/-- Checks that a revocation stands. -/
def standsRevoked (i : ℕ) (delegationId : String) (c : AdminConfig) : Bool :=
  decide (returned? c i = some delegationId) && (List.range c.threads.length).all fun j =>
    decide (j ≤ i) || (c.threads[j]?).all fun thread => !decide (lifts delegationId thread.job)

theorem stands_of_standsRevoked {i : ℕ} {d : String} {c : AdminConfig}
    (h : standsRevoked i d c = true) : StandsRevoked i d c := by
  rw [standsRevoked, Bool.and_eq_true, decide_eq_true_eq] at h
  obtain ⟨hreturned, hsince⟩ := h
  refine ⟨thread_of_returned hreturned, fun j thread hij hj => ?_⟩
  · have hlater := List.all_eq_true.1 hsince j
      (List.mem_range.2 (List.getElem?_eq_some_iff.1 hj).1)
    rw [hj, Bool.or_eq_true, decide_eq_true_eq] at hlater
    rcases hlater with hle | hkeeps
    · omega
    · simpa using hkeeps

/-- The answer to a request that presents a token of the delegation. -/
def answerFor (delegationId : String) (c : AdminConfig) (t : ℕ) : Option Response :=
  match c.world.gateway.threads[t]? with
  | some ⟨.paymentIntent _ (.signed claims) _, .ret (.ok response)⟩ =>
      if claims.delegationId = some delegationId then some response else none
  | _ => none

theorem answeredFor_of_answerFor {d : String} {c : AdminConfig} {t : ℕ} {response : Response}
    (h : answerFor d c t = some response) : AnsweredFor d c t response := by
  rw [answerFor] at h
  split at h
  case h_1 intent claims execute response' hthread =>
      obtain ⟨hd, heq⟩ := Option.ite_none_right_eq_some.1 h
      cases heq
      exact ⟨intent, claims, execute, hthread, hd⟩
  case h_2 => cases h

/-- The calls of the control plane and the steps beside them. -/
abbrev Conduct := List (Label AdminJob (Label Job Env Outcome) AdminOutcome)

/-- Executes a schedule in two parts, and checks where each of them ends. -/
def conducted (w : AdminWorld) (first second : Conduct) (p : AdminConfig → AdminConfig → Bool) :
    Bool :=
  ((administration Scenario.runtime).runWhile inOrder { world := w } first).any fun c₁ =>
    ((administration Scenario.runtime).runWhile inOrder c₁ second).any fun c₂ => p c₁ c₂

theorem exists_of_conducted {w : AdminWorld} (hw : (oneAfterAnother Scenario.runtime).initial w)
    {first second : Conduct} {p : AdminConfig → AdminConfig → Bool}
    (h : conducted w first second p = true) : ∃ c₁ c₂ : AdminConfig,
      Reachable (administration Scenario.runtime) (oneAfterAnother Scenario.runtime) c₁ ∧
      Leads (administration Scenario.runtime) (oneAfterAnother Scenario.runtime) c₁ c₂ ∧
      p c₁ c₂ = true := by
  have hcheck := admits_of_inOrder Scenario.runtime
  obtain ⟨c₁, h₁, h⟩ := Option.any_eq_true _ _ |>.1 h
  obtain ⟨c₂, h₂, h⟩ := Option.any_eq_true _ _ |>.1 h
  exact ⟨c₁, c₂, (Reachable.initial hw).leads (Leads.of_runWhile hcheck h₁),
    Leads.of_runWhile hcheck h₂, h⟩

/-- A call of the control plane whose operations complete. -/
def adminCall (i : ℕ) (job : AdminJob) : Conduct :=
  .spawn job :: List.replicate 4 (.run i .ok)

/-- Steps of the gateway. -/
def beside (ls : List (Label Job Env Outcome)) : Conduct := ls.map .act

/-- The policy of the user `u` over one unit a day. -/
def oneUnit : SpendingPolicy := Scenario.policy "u" 200 10 Scenario.threshold_fits

/-- A gateway at rest with the policy. -/
def boundWorld : AdminWorld where
  gateway := { world := Scenario.world oneUnit }

theorem boundWorld_initial : (oneAfterAnother Scenario.runtime).initial boundWorld :=
  .initial trivial

/-- The delegation is revoked, and a request for it is answered. -/
def askedWhileRevoked : Conduct :=
  beside (Scenario.request Scenario.firstOrder false :: steps 0 (oks 11))

theorem revocation_holds_once : ∃ (c₁ c₂ : AdminConfig) (response : Response),
    Reachable (administration Scenario.runtime) (oneAfterAnother Scenario.runtime) c₁ ∧
    Leads (administration Scenario.runtime) (oneAfterAnother Scenario.runtime) c₁ c₂ ∧
    StandsRevoked 0 "d" c₁ ∧ StandsRevoked 0 "d" c₂ ∧
    c₁.world.gateway.threads.length ≤ 0 ∧ AnsweredFor "d" c₂ 0 response ∧
    response.isBlock = true := by
  have hrun : conducted boundWorld (adminCall 0 (.revoke "d")) askedWhileRevoked (fun c₁ c₂ =>
      standsRevoked 0 "d" c₁ && standsRevoked 0 "d" c₂ &&
        decide (c₁.world.gateway.threads.length ≤ 0) && (answerFor "d" c₂ 0).isSome) = true := by
    decide +kernel
  obtain ⟨c₁, c₂, hc₁, h₁₂, hp⟩ := exists_of_conducted boundWorld_initial hrun
  simp only [Bool.and_eq_true, decide_eq_true_eq, Option.isSome_iff_exists] at hp
  obtain ⟨⟨⟨hstands₁, hstands₂⟩, hstart⟩, response, hanswer⟩ := hp
  have hstands₁ := stands_of_standsRevoked hstands₁
  have hstands₂ := stands_of_standsRevoked hstands₂
  have hanswered := answeredFor_of_answerFor hanswer
  exact ⟨c₁, c₂, response, hc₁, h₁₂, hstands₁, hstands₂, hstart, hanswered,
    revocation_holds hc₁ h₁₂ .refl hstands₁ hstands₂ hstart (fun _ hev _ _ => hev) hanswered⟩

/-- A revocation that fails between its two writes. -/
def failedRevocation : Conduct :=
  [.spawn (.revoke "d"), .run 0 .ok, .run 0 .ok, .run 0 (.fault .storeError false)]

/-- The stores disagree after the failure, and agree after the call is repeated. -/
theorem call_settles_delegation_after_failure : ∃ c₁ c₂ : AdminConfig,
    Leads (administration Scenario.runtime) (oneAfterAnother Scenario.runtime) c₁ c₂ ∧
    "d" ∉ c₁.world.gateway.world.revoked ∧
    (policyOf c₁.world "d").map SpendingPolicy.revoked = some true ∧
    "d" ∈ c₂.world.gateway.world.revoked ∧
    ∃ policy, policyOf c₂.world "d" = some policy ∧ policy.revoked = true := by
  have hrun : conducted boundWorld failedRevocation (adminCall 1 (.revoke "d")) (fun c₁ c₂ =>
      decide ("d" ∉ c₁.world.gateway.world.revoked) &&
        decide ((policyOf c₁.world "d").map SpendingPolicy.revoked = some true) &&
          decide (c₂.threads.length = 2) && decide (returned? c₂ 1 = some "d")) = true := by
    decide +kernel
  obtain ⟨c₁, c₂, hc₁, h₁₂, hp⟩ := exists_of_conducted boundWorld_initial hrun
  simp only [Bool.and_eq_true, decide_eq_true_eq] at hp
  obtain ⟨⟨⟨hset, hflag⟩, hlength⟩, hreturned⟩ := hp
  have hsettled := call_settles_delegation (hc₁.leads h₁₂) (thread_of_returned hreturned)
    fun j thread hj hthread => by
      have hbound := (List.getElem?_eq_some_iff.1 hthread).1
      omega
  exact ⟨c₁, c₂, h₁₂, hset, hflag, hsettled.1.2 rfl, hsettled.2.2 rfl⟩

end AgentPay.Properties
