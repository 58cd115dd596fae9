import AgentPay.Library.Watching
import AgentPay.Properties.ApprovalSpent
import AgentPay.Simulator.Runs

/-!
# One charge for a resumed run

The requests that resume a run present tokens of the run's approval under fresh keys. In a run of the
gateway that keeps the slots among the requests of one approval at most one of them sends a charge
(`approval_charged_once`), and so do the calls that resume one run, however they interleave and
whichever of their requests the client gives up (`resumed_run_charged_once`). A call whose client gave
up leaves the run approvable, and the next call charges in another bucket of the clock
(`resumed_run_charged_twice`).
-/

set_option autoImplicit false

namespace AgentPay.Properties

open AgentPay.Library AgentPay.Library.Machine AgentPay.Gateway

/-! ## The charges of an approval -/

/-- The request sent a charge. -/
def chargeSent (_ : RequestThread) (s : Session) : Bool := s.charged

/-- The operation sends a charge. -/
def isCharge : Op → Bool
  | .sendCharge .. => true
  | _ => false

/-- The number of charges some requests sent. -/
def chargesOf (tids : List ℕ) (c : Config) : ℕ :=
  c.log.countP fun ev => decide (ev.tid ∈ tids) && isCharge ev.op

section Gateway

variable {R : Runtime} {D : Discipline} {c : Config}

theorem charged_next (s : Session) {op : Op} (answer : Except Exn op.Val) :
    (s.next op answer).charged = (s.charged || isCharge op) := by
  cases op
  case sendCharge token body => cases answer <;> exact (Bool.or_true _).symm
  case commitState id target reference detail =>
      cases target <;> cases answer <;> exact (Bool.or_false _).symm
  all_goals cases answer <;> exact (Bool.or_false _).symm

/-- A session that sent a charge holds its credential. -/
theorem issued_of_charged (hc : Reachable (machine R) D c) {tid : ℕ} {s : Session}
    (hs : sessionOf c tid = some s) (hcharged : s.charged = true) : s.issued.isSome = true := by
  refine hc.thread_invariant custody Job.session (job_follows R)
    (I := fun _ s => s.charged = true → s.issued.isSome = true) ?_ ?_ ?_ ?_ hs hcharged
  · intro c job _ hcharged
    rw [job.session_eq] at hcharged
    cases hcharged
  · exact fun _ _ _ _ _ h => h
  · intro c tid s op o w answer _ hp h hcharged
    change (s.next op answer).issued.isSome = true
    replace hcharged : (s.charged || isCharge op) = true := by
      rw [← charged_next s answer]
      exact hcharged
    cases op
    case sendCharge token body =>
        obtain ⟨-, -, hissued, -⟩ := hp.guard
        cases answer <;> exact Option.isSome_iff_exists.2 ⟨token, hissued⟩
    case signAuthorization claims =>
        cases answer with
        | error e => exact h ((Bool.or_false _).symm.trans hcharged)
        | ok u => rfl
    case commitState id target reference detail =>
        cases target <;> cases answer <;> exact h ((Bool.or_false _).symm.trans hcharged)
    all_goals cases answer <;> exact h ((Bool.or_false _).symm.trans hcharged)
  · exact fun _ _ _ _ _ _ _ _ _ _ _ _ _ h => h

/-- The session of a thread that sent a charge says so. -/
theorem charged_of_charge (hc : Reachable (machine R) D c) {ev : Event} (hev : ev ∈ c.log)
    (hcharge : isCharge ev.op = true) : ∃ s, sessionOf c ev.tid = some s ∧ s.charged = true := by
  obtain ⟨thread, hthread⟩ : ∃ thread, c.threads[ev.tid]? = some thread :=
    ⟨_, List.getElem?_eq_getElem (hc.proper ev hev)⟩
  refine ⟨_, by rw [sessionOf, Config.session, hthread, Option.map_some], ?_⟩
  generalize Job.session _ = start
  generalize c.log = log at hev
  induction log with
  | nil => cases hev
  | cons e log ih =>
      simp only [Machine.replay]
      rcases List.mem_cons.1 hev with rfl | hev
      · rw [if_pos rfl]
        exact (charged_next _ _).trans (by rw [hcharge, Bool.or_true])
      · split
        · exact (charged_next _ _).trans (by rw [ih hev, Bool.true_or])
        · exact ih hev

/-- In a run that keeps the slots among the requests of one approval, these send one charge at most. -/
theorem approval_charged_once {a : ℕ} {tids : List ℕ}
    (hc : Reachable (machine R) (slotsKept sameApproval chargeSent) c)
    (htids : ∀ tid ∈ tids, ∀ s, sessionOf c tid = some s →
      ∃ intent, s.intent = some intent ∧ presentedApproval intent = some a) :
    chargesOf tids c ≤ 1 := by
  revert htids
  refine Reachable.invariant custody Job.session (job_follows R)
    (I := fun c => (∀ tid ∈ tids, ∀ s, sessionOf c tid = some s →
      ∃ intent, s.intent = some intent ∧ presentedApproval intent = some a) →
        chargesOf tids c ≤ 1) ?_ ?_ ?_ ?_ hc
  · exact fun _ _ _ => Nat.zero_le 1
  · intro c job hc ih _ heq htids
    refine ih fun tid htid s hs => htids tid htid s ?_
    have hne : tid ≠ c.threads.length := by
      rintro rfl
      simp [sessionOf, Config.session] at hs
    rw [sessionOf, heq, Function.update_of_ne hne]
    exact hs
  · exact fun _ _ _ ih _ => ih
  · intro c tid s job op next o w answer hc ih ht hp heq htids
    have hpresents : ∀ t ∈ tids, ∀ s', sessionOf c t = some s' →
        ∃ intent, s'.intent = some intent ∧ presentedApproval intent = some a := by
      intro t htid s' hs'
      by_cases hne : t = tid
      · subst hne
        cases hp.session.symm.trans hs'
        obtain ⟨intent, hintent, ha⟩ := htids t htid (s.next op answer) (by
          rw [sessionOf, heq, Function.update_self]
          rfl)
        exact ⟨intent, (intent_next answer s).symm.trans hintent, ha⟩
      · refine htids t htid s' ?_
        rw [sessionOf, heq, Function.update_of_ne hne]
        exact hs'
    change (_ :: c.log).countP (fun ev => decide (ev.tid ∈ tids) && isCharge ev.op) ≤ 1
    rw [List.countP_cons]
    by_cases hsends : (decide (tid ∈ tids) && isCharge op) = true
    case neg =>
        rw [if_neg hsends]
        exact ih hpresents
    rw [if_pos hsends]
    rw [Bool.and_eq_true, decide_eq_true_eq] at hsends
    obtain ⟨htid, hcharge⟩ := hsends
    cases op
    case sendCharge token body =>
        obtain ⟨hfirst, -, hissued, -⟩ := hp.guard
        -- an earlier charge was sent by a rival that found its slot free as well
        have hnone : c.log.countP (fun ev => decide (ev.tid ∈ tids) && isCharge ev.op) = 0 := by
          rw [List.countP_eq_zero]
          intro ev hev hearlier
          rw [Bool.and_eq_true, decide_eq_true_eq] at hearlier
          obtain ⟨s', hs', hcharged⟩ := charged_of_charge hc hev hearlier.2
          by_cases hne : ev.tid = tid
          · rw [hne] at hs'
            cases hp.session.symm.trans hs'
            cases hfirst.symm.trans hcharged
          · obtain ⟨txn, intent, -, hcanonical, hfree⟩ := foundFree_of_issued hc hp.session
              (Option.isSome_iff_exists.2 ⟨token, hissued⟩)
            obtain ⟨txn', intent', -, hcanonical', hfree'⟩ :=
              foundFree_of_issued hc hs' (issued_of_charged hc hs' hcharged)
            obtain ⟨intent₁, hintent₁, ha⟩ := hpresents tid htid s hp.session
            obtain ⟨intent₂, hintent₂, ha'⟩ := hpresents ev.tid hearlier.1 s' hs'
            cases hcanonical.ofIntent.symm.trans hintent₁
            cases hcanonical'.ofIntent.symm.trans hintent₂
            obtain ⟨thread', hthread', -⟩ := Option.map_eq_some_iff.1 hs'
            exact one_rival_stands sameApproval_symm hc tid ev.tid _ _ (Ne.symm hne) ⟨a, ha, ha'⟩
              hfree hfree' (.inl ⟨job, _, next, ht⟩)
              (.inr ⟨thread', s', hthread', hs', hcharged⟩)
        rw [hnone]
    all_goals cases hcharge

end Gateway

/-! ## What a grant answers with -/

/-- The protocol that permits everything and remembers nothing. -/
def unguarded : Protocol Op Op.Val Exn Unit where
  guard _ _ := True
  next _ _ _ := ()

theorem follows_unguarded {α : Type} (p : Py α) : p.Follows unguarded () fun _ _ => True := by
  induction p with
  | ret r => trivial
  | call op next ih => exact ⟨trivial, fun answer => ih answer⟩

theorem returns_unguarded {α : Type} (p : Py α) :
    p.Follows unguarded () (Prog.Returns fun _ _ => True) := by
  refine (follows_unguarded p).mono fun r _ _ => ?_
  cases r <;> trivial

/-- A token that is granted names the request it was granted for. -/
def NamesRequest : Job → Except Exn Response → Unit → Prop
  | .grantApproval a, .ok (.approval (some claims)), _ => claims.approvalRequestId = a
  | _, _, _ => True

theorem grant_names_request (a : ℕ) : (grant a).Follows unguarded ()
    (Prog.Returns fun token _ => ∀ claims, token = some claims → claims.approvalRequestId = a) := by
  refine (returns_unguarded _).bind_returns fun request _ _ => ?_
  cases request with
  | none => exact fun claims h => nomatch h
  | some request =>
      refine Prog.Follows.perform_returns trivial fun _ => ?_
      refine Prog.Follows.perform_returns trivial fun time => ?_
      refine Prog.Follows.perform_returns trivial fun jti => ?_
      cases hclaims : approvalClaims request a jti (time / seconds 1) with
      | none => trivial
      | some claims =>
          refine Prog.Follows.perform_returns trivial fun _ => ?_
          rintro claims' h
          cases h
          obtain ⟨amount, -, rfl⟩ := Option.map_eq_some_iff.1 hclaims
          rfl

theorem names_request (R : Runtime) (job : Job) :
    (job.start R).Follows unguarded () (NamesRequest job) := by
  cases job with
  | grantApproval a =>
      have hgrant : (Gateway.grantApproval R a).Follows unguarded () (Prog.Returns fun token _ =>
          ∀ claims, token = some claims → claims.approvalRequestId = a) := by
        refine (grant_names_request a).bind_returns fun token _ htoken => ?_
        cases token with
        | none => exact htoken
        | some token =>
            refine (returns_unguarded _).bind_returns fun _ _ _ => ?_
            exact (returns_unguarded _).bind_returns fun _ _ _ => htoken
      rw [Job.start, unhandled, Prog.follows_recover, Prog.follows_bind]
      refine hgrant.mono fun r _ hr => ?_
      cases r with
      | ok token =>
          cases token with
          | none => trivial
          | some claims => exact hr claims rfl
      | error e =>
          simp only
          split <;> trivial
  | _ => exact (follows_unguarded _).mono fun _ _ _ => trivial

/-- The answer of a grant names its request. -/
theorem granted_names_request {R : Runtime} {D : Discipline} {c : Config}
    (hc : Reachable (machine R) D c) {tid a : ℕ} {claims : ApprovalClaims}
    (hjob : c.threads[tid]?.map Thread.job = some (.grantApproval a))
    (htoken : Simulator.grantedToken? c tid = some claims) : claims.approvalRequestId = a := by
  obtain ⟨thread, hthread, hthreadJob⟩ := Option.map_eq_some_iff.1 hjob
  obtain ⟨job, prog⟩ := thread
  cases hthreadJob
  rw [Simulator.grantedToken?, hthread, Option.map_some] at htoken
  split at htoken
  · rename_i token hprog
    cases hprog
    subst htoken
    obtain ⟨_, _, hnames⟩ := hc.post unguarded (fun _ => ()) (names_request R) hthread
    exact hnames
  · cases htoken

/-! ## The calls for a run -/

open Simulator (CallOp SimulatorError simulator approveAndResume)

/-- What a call has learned: the approval request of the run, the thread of its grant and the token
granted, that the graph was updated, and the token the node was run with. -/
structure CallSession where
  approval : Option ℕ := none
  granting : Option ℕ := none
  granted : Option ApprovalClaims := none
  updated : Bool := false
  node : Option (Option ApprovalClaims) := none

/-- The session after an answer. -/
def CallSession.next (s : CallSession) : (op : CallOp) → Except SimulatorError op.Val → CallSession
  | .approvalRequestId, .ok a => { s with approval := a }
  | .post (.grantApproval _), .ok tid => { s with granting := some tid }
  | .awaitGrant _, .ok claims => { s with granted := some claims }
  | .updateState _, .ok _ => { s with updated := true }
  | .invoke, .ok (.inr token) => { s with node := some token }
  | _, _ => s

/-- The operations a call may perform. -/
def CallSession.guard (s : CallSession) : CallOp → Prop
  | .post (.grantApproval a) => s.approval = some a
  | .post (.paymentIntent intent _ _) =>
      ∃ token, s.node = some token ∧ intent.approvalToken = token.map .signed
  | .post _ => False
  | .awaitGrant tid => s.granting = some tid
  | .updateState token => s.granted = some token
  | .invoke => s.updated = true
  | _ => True

/-- The protocol of a call. -/
def calling : Protocol CallOp CallOp.Val SimulatorError CallSession where
  guard := CallSession.guard
  next := CallSession.next

/-- The operations of the node that submits the approved payment. -/
def Submitting (token : Option ApprovalClaims) : CallOp → Prop
  | .post (.paymentIntent intent _ _) => intent.approvalToken = token.map .signed
  | .uuidHex | .delegationToken | .awaitDecision _ | .addDecision _ | .latestDecision
  | .setStatus _ => True
  | _ => False

theorem only_submitApprovedPayment (order : PaymentIntent) (token : Option ApprovalClaims) :
    (Simulator.submitApprovedPayment order token).Only (Submitting token) := by
  refine Prog.Only.bind ((Prog.only_perform _ _).2 trivial) fun hex => ?_
  refine Prog.Only.bind ?_ fun _ => ?_
  · refine Prog.Only.bind (Prog.Only.recover ?_ fun _ => trivial) fun _ =>
      (Prog.only_perform _ _).2 trivial
    refine Prog.Only.bind ((Prog.only_perform _ _).2 trivial) fun credential => ?_
    exact Prog.Only.bind ((Prog.only_perform _ _).2 rfl) fun _ => (Prog.only_perform _ _).2 trivial
  · exact Prog.Only.bind ((Prog.only_perform _ _).2 trivial) fun _ => trivial

/-- A call follows its protocol. -/
theorem follows_approveAndResume (order : PaymentIntent) :
    (approveAndResume order).Follows calling {} (fun _ _ => True) := by
  refine Prog.Follows.perform trivial (fun run => ?_) fun _ => trivial
  cases run with
  | none => trivial
  | some status =>
      simp only
      split
      · trivial
      refine Prog.Follows.perform trivial (fun request => ?_) fun _ => trivial
      cases request with
      | none => trivial
      | some a =>
          refine Prog.Follows.bind (R := fun r s => ∀ token, r = .ok token → s.granted = some token)
            ?_ (fun token s hs => ?_) fun _ _ _ => trivial
          · refine Prog.Follows.perform rfl (fun tid => ?_) fun _ => fun _ h => nomatch h
            refine ⟨rfl, fun answer => ?_⟩
            rintro token rfl
            rfl
          refine Prog.Follows.perform (hs token rfl) (fun _ => ?_) fun _ => trivial
          refine Prog.Follows.perform rfl (fun graph => ?_) fun _ => trivial
          cases graph with
          | inl status => exact ⟨trivial, fun _ => trivial⟩
          | inr token =>
              refine (Prog.Follows.of_only_still (A := Submitting token) ?_ ?_).mono
                fun _ _ _ => trivial
              · intro op hop
                cases op with
                | post job =>
                    cases job with
                    | paymentIntent intent credential execute =>
                        exact ⟨⟨token, rfl, hop⟩, fun answer => rfl⟩
                    | _ => exact hop.elim
                | uuidHex | delegationToken | awaitDecision | addDecision | latestDecision
                | setStatus => exact ⟨trivial, fun answer => by cases answer <;> rfl⟩
                | _ => exact hop.elim
              · exact (only_submitApprovedPayment order token).bind fun _ =>
                  (Prog.only_perform _ _).2 trivial

/-- The steps of the gateway meet a discipline. -/
def overGateway (R : Runtime) (D : Discipline) : Simulator.Discipline where
  initial w := Reachable (machine R) D w.gateway ∧ w.graphToken = none ∧ w.sent = []
  act c l := ∀ g, (machine R).step {} c.world.gateway l = some g →
    Moves (machine R) D c.world.gateway g
  run c ev := ∀ job, ev.op = .post job → D.spawn c.world.gateway job

section Calls

variable {R : Runtime} {D : Discipline} {order : PaymentIntent} {c : Simulator.Config}

/-- What an operation of a call does to the world: it sends a request to the gateway, or it leaves the
gateway and the requests sent. -/
theorem perform_call {w w' : Simulator.World} {op : CallOp} {o : Simulator.Choice}
    {answer : Except SimulatorError op.Val} (h : w.perform R op o = some (w', answer)) :
    w'.approvalRequestId = w.approvalRequestId ∧
      ((∃ job, op = .post job ∧ w' = w.posted R job) ∨
        (w'.gateway = w.gateway ∧ w'.sent = w.sent ∧ (w'.graphToken = w.graphToken ∨
          ∃ token, op = .updateState token ∧ w'.graphToken = some token))) := by
  cases op <;> cases o <;> simp only [Simulator.World.perform, Option.some.injEq, Prod.mk.injEq,
    Option.map_eq_some_iff, reduceCtorEq] at h
  case post.fault job arrived =>
      obtain ⟨rfl, -⟩ := h
      cases arrived with
      | true => exact ⟨rfl, .inl ⟨job, rfl, rfl⟩⟩
      | false => exact ⟨rfl, .inr ⟨rfl, rfl, .inl rfl⟩⟩
  case post.ok job =>
      obtain ⟨rfl, -⟩ := h
      exact ⟨rfl, .inl ⟨job, rfl, rfl⟩⟩
  case updateState.ok token =>
      obtain ⟨rfl, -⟩ := h
      exact ⟨rfl, .inr ⟨rfl, rfl, .inr ⟨token, rfl, rfl⟩⟩⟩
  case awaitGrant.ok tid =>
      obtain ⟨_, -, rfl, -⟩ := h
      exact ⟨rfl, .inr ⟨rfl, rfl, .inl rfl⟩⟩
  case awaitDecision.ok tid =>
      obtain ⟨_, -, rfl, -⟩ := h
      exact ⟨rfl, .inr ⟨rfl, rfl, .inl rfl⟩⟩
  all_goals
    obtain ⟨rfl, -⟩ := h
    exact ⟨rfl, .inr ⟨rfl, rfl, .inl rfl⟩⟩

/-- The gateway of a run of the calls is in a run of its own. -/
theorem gateway_reachable (hc : Reachable (simulator R order) (overGateway R D) c) :
    Reachable (machine R) D c.world.gateway := by
  induction hc with
  | initial hw => exact hw.1
  | spawn job _ _ ih => exact ih
  | @act c l _ hd ih =>
      change Reachable (machine R) D (((machine R).step {} c.world.gateway l).getD c.world.gateway)
      cases hstep : (machine R).step {} c.world.gateway l with
      | none => exact ih
      | some g => exact ih.moves (hd g hstep)
  | @run c tid job op next o w answer _ _ hp hd ih =>
      change Reachable (machine R) D w.gateway
      obtain ⟨-, hpost | hkept⟩ := perform_call hp
      · obtain ⟨job, rfl, rfl⟩ := hpost
        exact .spawn job ih (hd job rfl)
      · rw [hkept.1]
        exact ih

/-- The token in the state of the graph names the approval of the run, and the payment requests of its
calls present it. -/
structure KeepsApproval (w : Simulator.World) : Prop where
  token : ∀ claims, w.graphToken = some claims → w.approvalRequestId = some claims.approvalRequestId
  sent : ∀ tid ∈ w.sent, ∃ a intent credential execute, w.approvalRequestId = some a ∧
    w.gateway.threads[tid]?.map Thread.job = some (.paymentIntent intent credential execute) ∧
    presentedApproval intent = some a

/-- What a call has learned is about the approval of the run. -/
structure KnowsApproval (w : Simulator.World) (s : CallSession) : Prop where
  approval : ∀ a, s.approval = some a → w.approvalRequestId = some a
  granting : ∀ tid, s.granting = some tid → ∃ a, w.approvalRequestId = some a ∧
    w.gateway.threads[tid]?.map Thread.job = some (.grantApproval a)
  granted : ∀ claims, s.granted = some claims →
    w.approvalRequestId = some claims.approvalRequestId
  updated : s.updated = true → w.graphToken.isSome = true
  node : ∀ token, s.node = some token → ∃ claims, token = some claims ∧
    w.approvalRequestId = some claims.approvalRequestId

/-- The later world keeps the approval, the requests at the gateway and the token of the graph. -/
structure RunGrows (w w' : Simulator.World) : Prop where
  approval : w'.approvalRequestId = w.approvalRequestId
  jobs : ∀ (tid : ℕ) (job : Job), w.gateway.threads[tid]?.map Thread.job = some job →
    w'.gateway.threads[tid]?.map Thread.job = some job
  token : w.graphToken.isSome = true → w'.graphToken.isSome = true

theorem KnowsApproval.later {w w' : Simulator.World} {s : CallSession} (h : KnowsApproval w s)
    (hw : RunGrows w w') : KnowsApproval w' s where
  approval a ha := hw.approval.trans (h.approval a ha)
  granting tid htid := by
    obtain ⟨a, ha, hjob⟩ := h.granting tid htid
    exact ⟨a, hw.approval.trans ha, hw.jobs tid _ hjob⟩
  granted claims hclaims := hw.approval.trans (h.granted claims hclaims)
  updated hs := hw.token (h.updated hs)
  node token htoken := by
    obtain ⟨claims, heq, ha⟩ := h.node token htoken
    exact ⟨claims, heq, hw.approval.trans ha⟩

/-- A payment request that was sent stays one. -/
theorem KeepsApproval.sent_later {w w' : Simulator.World} (h : KeepsApproval w)
    (hw : RunGrows w w') {tid : ℕ} (htid : tid ∈ w.sent) : ∃ a intent credential execute,
      w'.approvalRequestId = some a ∧ w'.gateway.threads[tid]?.map Thread.job =
        some (.paymentIntent intent credential execute) ∧ presentedApproval intent = some a := by
  obtain ⟨a, intent, credential, execute, ha, hjob, hpresents⟩ := h.sent tid htid
  exact ⟨a, intent, credential, execute, hw.approval.trans ha, hw.jobs tid _ hjob, hpresents⟩

/-- A request that reaches the gateway is added to its threads. -/
theorem runGrows_posted (w : Simulator.World) (job : Job) : RunGrows w (w.posted R job) := by
  refine ⟨rfl, fun tid job' h => ?_, id⟩
  obtain ⟨thread, hthread, rfl⟩ := Option.map_eq_some_iff.1 h
  change (w.gateway.threads ++ [_])[tid]?.map Thread.job = _
  rw [List.getElem?_append_left (List.getElem?_eq_some_iff.1 hthread).1, hthread, Option.map_some]

theorem job_posted (w : Simulator.World) (job : Job) :
    (w.posted R job).gateway.threads[w.gateway.threads.length]?.map Thread.job = some job := by
  change (w.gateway.threads ++ [_])[w.gateway.threads.length]?.map Thread.job = _
  rw [List.getElem?_concat_length, Option.map_some]

theorem runGrows_perform {w w' : Simulator.World} {op : CallOp} {o : Simulator.Choice}
    {answer : Except SimulatorError op.Val} (h : w.perform R op o = some (w', answer)) :
    RunGrows w w' := by
  obtain ⟨happroval, hpost | ⟨hgateway, -, htoken⟩⟩ := perform_call h
  · obtain ⟨job, -, rfl⟩ := hpost
    exact runGrows_posted w job
  · refine ⟨happroval, fun tid job hjob => by rwa [hgateway], fun hsome => ?_⟩
    rcases htoken with heq | ⟨token, -, heq⟩
    · rwa [heq]
    · rw [heq]
      rfl

theorem runGrows_gatewayStep {l : Label Job Env Outcome} {w : Simulator.World}
    (hd : ∀ g, (machine R).step {} w.gateway l = some g → Moves (machine R) D w.gateway g) :
    RunGrows w (w.gatewayStep R l) := by
  refine ⟨rfl, fun tid job hjob => ?_, id⟩
  change (((machine R).step {} w.gateway l).getD w.gateway).threads[tid]?.map Thread.job = some job
  cases hstep : (machine R).step {} w.gateway l with
  | none => exact hjob
  | some g =>
      obtain ⟨thread, hthread, hthreadJob⟩ := Option.map_eq_some_iff.1 hjob
      obtain ⟨thread', hthread', hjob'⟩ := (hd g hstep).job hthread
      rw [Option.getD_some, hthread', Option.map_some, hjob', hthreadJob]

/-- An operation of a call keeps the approval in the requests and in the graph. -/
theorem KeepsApproval.perform {w w' : Simulator.World} {s : CallSession} {op : CallOp}
    {o : Simulator.Choice} {answer : Except SimulatorError op.Val} (h : KeepsApproval w)
    (hs : KnowsApproval w s) (hguard : s.guard op) (hp : w.perform R op o = some (w', answer)) :
    KeepsApproval w' := by
  have hgrows := runGrows_perform hp
  obtain ⟨happroval, hpost | ⟨-, hsent, htoken⟩⟩ := perform_call hp
  · obtain ⟨job, rfl, rfl⟩ := hpost
    refine ⟨h.token, fun tid htid => ?_⟩
    cases job with
    | paymentIntent intent credential execute =>
        rcases List.mem_cons.1 htid with rfl | htid
        · obtain ⟨token, htoken, hintent⟩ := hguard
          obtain ⟨claims, rfl, ha⟩ := hs.node token htoken
          refine ⟨claims.approvalRequestId, intent, credential, execute, ha, job_posted w _, ?_⟩
          rw [presentedApproval, hintent]
          rfl
        · exact h.sent_later hgrows htid
    | _ => exact h.sent_later hgrows htid
  · refine ⟨fun claims hclaims => ?_, fun tid htid => h.sent_later hgrows (hsent ▸ htid)⟩
    rw [happroval]
    rcases htoken with heq | ⟨token, rfl, heq⟩
    · exact h.token claims (heq ▸ hclaims)
    · cases heq.symm.trans hclaims
      exact hs.granted claims hguard

/-- What a call learns is about the approval of the run. -/
theorem KnowsApproval.perform {w w' : Simulator.World} {s : CallSession} {op : CallOp}
    {o : Simulator.Choice} {answer : Except SimulatorError op.Val} (h : KnowsApproval w s)
    (hw : KeepsApproval w) (hgateway : Reachable (machine R) D w.gateway) (hguard : s.guard op)
    (hp : w.perform R op o = some (w', answer)) : KnowsApproval w' (s.next op answer) := by
  have hlater := h.later (runGrows_perform hp)
  cases answer with
  | error e =>
      cases op with
      | post job => cases job <;> exact hlater
      | _ => exact hlater
  | ok v =>
      cases op
      case approvalRequestId =>
          cases o <;> simp only [Simulator.World.perform, Option.some.injEq, Prod.mk.injEq,
            Except.ok.injEq, reduceCtorEq] at hp
          obtain ⟨rfl, rfl⟩ := hp
          exact ⟨fun a ha => ha, hlater.granting, hlater.granted, hlater.updated, hlater.node⟩
      case post job =>
          cases o <;> simp only [Simulator.World.perform, Option.some.injEq, Prod.mk.injEq,
            Except.ok.injEq, reduceCtorEq, and_false] at hp
          obtain ⟨rfl, rfl⟩ := hp
          cases job with
          | grantApproval a =>
              refine ⟨hlater.approval, ?_, hlater.granted, hlater.updated, hlater.node⟩
              rintro tid htid
              cases htid
              exact ⟨a, h.approval a hguard, job_posted w _⟩
          | _ => exact hlater
      case awaitGrant tid =>
          cases o <;> simp only [Simulator.World.perform, Option.some.injEq, Prod.mk.injEq,
            Option.map_eq_some_iff, Except.ok.injEq, reduceCtorEq, and_false] at hp
          obtain ⟨claims, hclaims, rfl, rfl⟩ := hp
          refine ⟨h.approval, h.granting, ?_, h.updated, h.node⟩
          rintro claims' heq
          cases heq
          obtain ⟨a, ha, hjob⟩ := h.granting tid hguard
          rw [granted_names_request hgateway hjob hclaims]
          exact ha
      case updateState token =>
          cases o <;> simp only [Simulator.World.perform, Option.some.injEq, Prod.mk.injEq,
            reduceCtorEq] at hp
          obtain ⟨rfl, -⟩ := hp
          exact ⟨h.approval, h.granting, h.granted, fun _ => rfl, h.node⟩
      case invoke =>
          cases o <;> simp only [Simulator.World.perform, Option.some.injEq, Prod.mk.injEq,
            Except.ok.injEq, reduceCtorEq] at hp
          · obtain ⟨rfl, rfl⟩ := hp
            refine ⟨h.approval, h.granting, h.granted, h.updated, ?_⟩
            rintro token heq
            cases heq
            obtain ⟨claims, hclaims⟩ := Option.isSome_iff_exists.1 (h.updated hguard)
            exact ⟨claims, hclaims, hw.token claims hclaims⟩
          · obtain ⟨rfl, rfl⟩ := hp
            exact h
      all_goals exact hlater

/-- What the calls for a run know, and what they send, is about its approval. -/
theorem calls_keep_approval (hc : Reachable (simulator R order) (overGateway R D) c) :
    KeepsApproval c.world := by
  suffices h : KeepsApproval c.world ∧ ∀ t s, c.session calling (fun _ => {}) t = some s →
      KnowsApproval c.world s from h.1
  refine Reachable.invariant calling (fun _ => {}) (fun _ => follows_approveAndResume order)
    (I := fun c => KeepsApproval c.world ∧ ∀ t s, c.session calling (fun _ => {}) t = some s →
      KnowsApproval c.world s) ?_ ?_ ?_ ?_ hc
  · rintro w ⟨-, htoken, hsent⟩
    refine ⟨⟨fun claims h => ?_, fun tid htid => ?_⟩, fun _ _ hs => nomatch hs⟩
    · cases htoken.symm.trans h
    · rw [hsent] at htid
      cases htid
  · intro c job _ ih _ heq
    refine ⟨ih.1, fun t s hs => ?_⟩
    rw [heq, Function.update_apply] at hs
    split at hs
    · cases hs
      exact ⟨nofun, nofun, nofun, nofun, nofun⟩
    · exact ih.2 t s hs
  · intro c l _ ih hd
    have hgrows := runGrows_gatewayStep (w := c.world) hd
    exact ⟨⟨ih.1.token, fun tid htid => ih.1.sent_later hgrows htid⟩,
      fun t s hs => (ih.2 t s hs).later hgrows⟩
  · intro c tid s job op next o w answer hc ih _ hp heq
    have hs := ih.2 tid s hp.session
    refine ⟨ih.1.perform hs hp.guard hp.perform, fun t s' hs' => ?_⟩
    rw [heq, Function.update_apply] at hs'
    split at hs'
    · cases hs'
      exact hs.perform ih.1 (gateway_reachable hc) hp.guard hp.perform
    · exact (ih.2 t s' hs').later (runGrows_perform hp.perform)

/-- Over a gateway that keeps the slots among the requests of one approval, the calls that resume a run
charge once. -/
theorem resumed_run_charged_once (R : Runtime) (order : PaymentIntent) (c : Simulator.Config)
    (hc : Reachable (simulator R order) (overGateway R (slotsKept sameApproval chargeSent)) c) :
    chargesOf c.world.sent c.world.gateway ≤ 1 := by
  have hkeeps := calls_keep_approval hc
  refine approval_charged_once (a := c.world.approvalRequestId.getD 0) (gateway_reachable hc) ?_
  intro tid htid s hs
  obtain ⟨a, intent, credential, execute, ha, hjob, hpresents⟩ := hkeeps.sent tid htid
  obtain ⟨thread, hthread, hthreadJob⟩ := Option.map_eq_some_iff.1 hjob
  refine ⟨intent, ?_, by rw [ha]; exact hpresents⟩
  rw [intent_of_job hs hthread, hthreadJob]
  rfl

end Calls

/-! ## Two runs of the calls -/

/-- A step that passes its check is a step without one. -/
theorem step_unchecked {R : Runtime} {checks : Checks} {g g' : Config}
    {l : Label Job Env Outcome} (h : (machine R).step checks g l = some g') :
    (machine R).step {} g l = some g' := by
  cases l with
  | spawn job => exact h
  | act env =>
      simp only [step] at h ⊢
      split at h
      · exact h
      · cases h
  | run tid choice =>
      simp only [step] at h ⊢
      split at h
      · obtain ⟨⟨w, answer⟩, hp, h⟩ := Option.bind_eq_some_iff.1 h
        simp only [hp, Option.bind_some]
        split at h
        · exact h
        · cases h
      · cases h

/-- The gateway makes the step, and under the checks. -/
def gatewayPasses (R : Runtime) (checks : Checks) (c : Simulator.Config)
    (l : Label Job Env Outcome) : Bool :=
  ((machine R).step checks c.world.gateway l).isSome

theorem overGateway_checked {R : Runtime} {D : Discipline} {checks : Checks}
    (hD : D.Checked checks) : (overGateway R D).Checked { act := gatewayPasses R checks } := by
  refine ⟨fun _ _ => trivial, fun c l hpass g hg => ?_, fun c ev _ job _ => hD.spawn _ job⟩
  obtain ⟨g', hg'⟩ := Option.isSome_iff_exists.1 hpass
  cases (step_unchecked hg').symm.trans hg
  exact .of_step hD hg'

/-- The first order is parked. -/
def parkedOrder : List (Label Job Env Outcome) :=
  [Scenario.request Scenario.firstOrder false] ++ steps 0 (Scenario.toInsertion ++ oks 10)

/-- The gateway when the order is parked. -/
def parkedGateway : Config :=
  ((machine Scenario.runtime).run {} { world := Scenario.world parkingPolicy } parkedOrder).getD
    { world := Scenario.world parkingPolicy }

/-- The gateway at rest is in a run of a discipline whose checks the schedule passes. -/
theorem parkedGateway_reachable {D : Discipline} {checks : Checks} (hD : D.Checked checks)
    (hinitial : D.initial (Scenario.world parkingPolicy))
    (hrun : ((machine Scenario.runtime).run checks { world := Scenario.world parkingPolicy }
      parkedOrder).isSome = true) : Reachable (machine Scenario.runtime) D parkedGateway := by
  have hunchecked : ∀ {ls : List (Label Job Env Outcome)} {g g' : Config},
      (machine Scenario.runtime).run checks g ls = some g' →
        (machine Scenario.runtime).run {} g ls = some g' := by
    intro ls
    induction ls with
    | nil => exact fun h => h
    | cons l ls ih =>
        intro g g' h
        obtain ⟨d, hd, h⟩ := Option.bind_eq_some_iff.1 h
        rw [run, step_unchecked hd]
        exact ih h
  obtain ⟨g, hg⟩ := Option.isSome_iff_exists.1 hrun
  rw [parkedGateway, hunchecked hg]
  exact .of_run hD (.initial hinitial) hg

/-- The world of the run that waits for the approval of the parked order. -/
def awaitingWorld : Simulator.World where
  gateway := parkedGateway
  approvalRequestId := some 0

/-- Steps of the gateway. -/
def gatewaySteps (tid : ℕ) (outcomes : List Outcome) :
    List (Label Unit (Label Job Env Outcome) Simulator.Choice) :=
  (steps tid outcomes).map .act

/-- A call up to the request for the payment: the gateway's threads for the grant and the payment are
`tid` and the next one. -/
def callUntilPosted (call tid : ℕ) (hex : Simulator.KeySuffix) :
    List (Label Unit (Label Job Env Outcome) Simulator.Choice) :=
  [.spawn ()] ++ List.replicate 3 (.run call .ok) ++ gatewaySteps tid (oks 13) ++
    List.replicate 3 (.run call .ok) ++ [.run call (.hex hex),
      .run call (.credential (Scenario.credential "u")), .run call .ok]

/-- The gateway carries out the payment up to the confirmation of the charge. -/
def carriedOut (tid : ℕ) : List (Label Unit (Label Job Env Outcome) Simulator.Choice) :=
  gatewaySteps tid (oks 10 ++ [Scenario.clean] ++ oks 42 ++ [Scenario.confirmed])

def firstHex : Simulator.KeySuffix := ⟨"000000000001", rfl⟩

def secondHex : Simulator.KeySuffix := ⟨"000000000002", rfl⟩

theorem resumed_run_charged_once_confirmed : ∃ c : Simulator.Config,
    Reachable (simulator Scenario.runtime Scenario.firstOrder)
      (overGateway Scenario.runtime (slotsKept sameApproval chargeSent)) c ∧
    chargesOf c.world.sent c.world.gateway = 1 ∧
    chargesOf c.world.sent c.world.gateway ≤ 1 := by
  have hchecked := slotsKept_checked sameApproval chargeSent
  have hparked := parkedGateway_reachable hchecked trivial (by decide +kernel)
  have hrun : (((simulator Scenario.runtime Scenario.firstOrder).run
      { act := gatewayPasses Scenario.runtime { run := othersSettled chargeSent } }
      { world := awaitingWorld } (callUntilPosted 0 1 firstHex ++ carriedOut 2)).any fun c =>
        decide (chargesOf c.world.sent c.world.gateway = 1)) = true := by decide +kernel
  obtain ⟨c, hc, hcharges⟩ := Reachable.exists_of_run (overGateway_checked hchecked)
    ⟨hparked, rfl, rfl⟩ hrun
  exact ⟨c, hc, hcharges, resumed_run_charged_once _ _ c hc⟩

/-- The client of the first call gives up while the gateway carries out its payment; the run is
approved again in the next bucket. -/
def approvedAgain : List (Label Unit (Label Job Env Outcome) Simulator.Choice) :=
  callUntilPosted 0 1 firstHex ++ [.run 0 (.fault true)] ++ carriedOut 2 ++
    [.act (.act (.tick (seconds 300)))] ++ callUntilPosted 1 3 secondHex ++ carriedOut 4

/-- A run is charged twice. -/
theorem resumed_run_charged_twice : ¬ ∀ (R : Runtime) (order : PaymentIntent)
    (c : Simulator.Config), Reachable (simulator R order) (overGateway R {}) c →
    chargesOf c.world.sent c.world.gateway ≤ 1 := by
  intro h
  have hchecked : Machine.Discipline.Checked ({} : Discipline) ({} : Checks) :=
    ⟨fun _ _ => trivial, fun _ _ _ => trivial, fun _ _ _ => trivial⟩
  have hparked := parkedGateway_reachable hchecked trivial (by decide +kernel)
  have hrun : (((simulator Scenario.runtime Scenario.firstOrder).run
      { act := gatewayPasses Scenario.runtime {} } { world := awaitingWorld }
      approvedAgain).any fun c =>
        decide (chargesOf c.world.sent c.world.gateway = 2)) = true := by decide +kernel
  obtain ⟨c, hc, hcharges⟩ := Reachable.exists_of_run (overGateway_checked hchecked)
    ⟨hparked, rfl, rfl⟩ hrun
  have hone := h _ _ c hc
  rw [hcharges] at hone
  exact absurd hone (by decide)

end AgentPay.Properties
