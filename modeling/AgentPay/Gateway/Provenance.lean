import AgentPay.Gateway.Grounds
import AgentPay.Gateway.Ledger
import AgentPay.Library.Causes

/-!
# Where what is on record comes from

What a session knows was seen by its thread (`seen_of_session` and its instances), and what a thread
has seen happened at a moment at which the job had its grounds (`grounded_at`). `perform_row` says
where a row of the database comes from; from it follows the rule by which something is proved of
every row of a run (`row_invariant`).
-/

set_option autoImplicit false

namespace AgentPay.Gateway

open AgentPay.Library AgentPay.Library.Machine AgentPay.Policies

/-! ## What a session knows -/

section Knowledge

variable {R : Runtime} {D : Discipline} {c : Config} {tid : ℕ} {s : Session}

/-- What has seen something has a session. -/
theorem session_of_seen (hc : Reachable (machine R) D c) {e : (op : Op) × Except Exn op.Val}
    (h : e ∈ seenBy tid c.log) : ∃ s, sessionOf c tid = some s := by
  obtain ⟨ev, hev, rfl, -⟩ := mem_seenBy.1 h
  refine Option.isSome_iff_exists.1 ?_
  rw [sessionOf, Config.session, Option.isSome_map, List.getElem?_eq_getElem (hc.proper ev hev)]
  rfl

/-- What a session knows and no job knows at its start, its thread has seen. -/
theorem seen_of_session {K : Session → Prop} {L : (op : Op) × Except Exn op.Val → Prop}
    (hstart : ∀ intent, ¬ K { intent := intent })
    (hnext : ∀ s op answer, K (s.next op answer) → K s ∨ L ⟨op, answer⟩)
    (hs : sessionOf c tid = some s) (h : K s) : ∃ e ∈ seenBy tid c.log, L e := by
  obtain ⟨thread, -, rfl⟩ := Option.map_eq_some_iff.1 hs
  refine seen_of_replay custody hnext ?_ h
  rw [Job.session_eq]
  exact hstart _

/-- The session holds what an operation answered: the row that was inserted, the credential that was
signed, the replies and the list of stale payments that were received. -/
def Holding (s : Session) : (op : Op) × Except Exn op.Val → Prop
  | ⟨.insertTransaction row, .ok _⟩ => s.row = some row
  | ⟨.signAuthorization claims, .ok _⟩ => s.issued = some claims
  | ⟨.awaitCharge id, .ok reply⟩ => s.chargeReply = some (id, reply)
  | ⟨.awaitQuery id, .ok reply⟩ => s.queryReply = some (id, reply)
  | ⟨.selectStale now, .ok stale⟩ => s.stale = some (now, stale)
  | _ => False

/-- A session that holds something new holds the present answer. -/
theorem holding_next (s : Session) (op : Op) (answer : Except Exn op.Val)
    {e : (op : Op) × Except Exn op.Val} (h : Holding (s.next op answer) e) :
    Holding s e ∨ e = ⟨op, answer⟩ := by
  obtain ⟨op', answer'⟩ := e
  cases op
  case insertTransaction | signAuthorization | awaitCharge | awaitQuery | selectStale =>
      cases answer with
      | error _ => exact .inl h
      | ok _ =>
          cases op' <;> cases answer' <;> first
            | exact .inl h
            | (cases h; exact .inr rfl)
  case commitState id target reference detail => cases target <;> cases answer <;> exact .inl h
  all_goals cases answer <;> exact .inl h

theorem seen_of_holding (hs : sessionOf c tid = some s) {e : (op : Op) × Except Exn op.Val}
    (h : Holding s e) : e ∈ seenBy tid c.log := by
  have hstart : ∀ intent, ¬ Holding { intent := intent } e := by
    intro intent h
    unfold Holding at h
    split at h <;> cases h
  obtain ⟨e', he', rfl⟩ := seen_of_session (K := fun s => Holding s e) hstart
    (fun s op answer h => holding_next s op answer h) hs h
  exact he'

/-- A job that has seen a credential signed holds one. -/
theorem issued_of_seen (hs : sessionOf c tid = some s) {claims : AuthorizationClaims}
    (h : ⟨.signAuthorization claims, .ok ()⟩ ∈ seenBy tid c.log) : s.issued.isSome = true := by
  obtain ⟨thread, -, rfl⟩ := Option.map_eq_some_iff.1 hs
  refine replay_of_seen custody (K := fun s => s.issued.isSome = true) ?_ (fun _ => rfl) h
  intro s op answer h
  cases op
  case commitState id target reference detail => cases target <;> cases answer <;> exact h
  case signAuthorization claims =>
      cases answer with
      | error _ => exact h
      | ok _ => rfl
  all_goals cases answer <;> exact h

/-- A job that holds an identifier has drawn it. -/
theorem drawn_seen (hs : sessionOf c tid = some s) {n : ℕ} (h : n ∈ s.drawn) :
    ⟨.uuid4, .ok n⟩ ∈ seenBy tid c.log := by
  obtain ⟨e, he, rfl⟩ := seen_of_session (K := fun s => n ∈ s.drawn)
    (L := fun e => e = ⟨.uuid4, .ok n⟩) (fun _ h => absurd h List.not_mem_nil)
    (fun s op answer h => by
      by_cases hop : op = .uuid4
      · subst hop
        cases answer with
        | error _ => exact .inl h
        | ok m =>
            rcases List.mem_cons.1 h with rfl | h
            · exact .inr rfl
            · exact .inl h
      · rw [drawn_next_of_ne answer s hop] at h
        exact .inl h) hs h
  exact he

theorem drawn_of_seen (hs : sessionOf c tid = some s) {n : ℕ}
    (h : ⟨.uuid4, .ok n⟩ ∈ seenBy tid c.log) : n ∈ s.drawn := by
  obtain ⟨thread, -, rfl⟩ := Option.map_eq_some_iff.1 hs
  refine replay_of_seen custody (K := fun s => n ∈ s.drawn) ?_ (fun _ => List.mem_cons_self) h
  intro s op answer h
  by_cases hop : op = .uuid4
  · subst hop
    cases answer with
    | error _ => exact h
    | ok m => exact List.mem_cons_of_mem _ h
  · change n ∈ (s.next op answer).drawn
    rw [drawn_next_of_ne answer s hop]
    exact h

/-- A job that sent a charge has sent it. -/
theorem charge_seen (hs : sessionOf c tid = some s) (h : s.charged = true) :
    ∃ token body answer, ⟨.sendCharge token body, answer⟩ ∈ seenBy tid c.log := by
  obtain ⟨e, he, token, body, answer, rfl⟩ := seen_of_session (K := fun s => s.charged = true)
    (L := fun e => ∃ token body answer, e = ⟨.sendCharge token body, answer⟩) (fun _ h => nomatch h)
    (fun s op answer h => by
      cases op
      case sendCharge token body => exact .inr ⟨token, body, answer, rfl⟩
      case commitState id target reference detail => cases target <;> cases answer <;> exact .inl h
      all_goals cases answer <;> exact .inl h) hs h
  exact ⟨token, body, answer, he⟩

/-- The payments a reconciliation works on were listed. -/
theorem unknowns_seen (hs : sessionOf c tid = some s) {id : ℕ} (h : id ∈ s.unknowns) :
    ∃ cutoff pending, ⟨.selectUnknown cutoff, .ok pending⟩ ∈ seenBy tid c.log ∧
      id ∈ pending.map Prod.fst := by
  obtain ⟨e, he, cutoff, pending, rfl, hid⟩ := seen_of_session (K := fun s => id ∈ s.unknowns)
    (L := fun e => ∃ cutoff pending, e = ⟨.selectUnknown cutoff, .ok pending⟩ ∧
      id ∈ pending.map Prod.fst) (fun _ h => absurd h List.not_mem_nil)
    (fun s op answer h => by
      cases op
      case selectUnknown cutoff =>
          cases answer with
          | error _ => exact .inl h
          | ok pending => exact .inr ⟨cutoff, pending, rfl, h⟩
      case commitState id target reference detail => cases target <;> cases answer <;> exact .inl h
      all_goals cases answer <;> exact .inl h) hs h
  exact ⟨cutoff, pending, he, hid⟩

end Knowledge

/-! ## Moments -/

section Moments

variable {R : Runtime} {D : Discipline} {c : Config} {tid : ℕ} {op : Op}
  {answer : Except Exn op.Val}

/-- The moment of an answer that was seen: the configuration before it, in which the operation had
its grounds and was in the custody of the job. -/
structure Instant (R : Runtime) (D : Discipline) (c : Config) (tid : ℕ) (op : Op)
    (answer : Except Exn op.Val) (c₀ : Config) : Prop where
  reachable : Reachable (machine R) D c₀
  leads : Leads (machine R) D c₀ c
  shorter : c₀.log.length < c.log.length
  seen : Extends (fun _ => True) (seenBy tid c₀.log) (seenBy tid c.log)
  performed : ∃ choice w, c₀.world.perform op choice = some (w, answer)
  grounded : Grounded (seenBy tid c₀.log) op
  custody : ∃ s, sessionOf c₀ tid = some s ∧ s.guard op

/-- The operation a thread is about to perform has its grounds. -/
theorem grounded_of_pending (hc : Reachable (machine R) D c) {job : Job}
    {next : Except Exn op.Val → Py Response} (ht : c.threads[tid]? = some ⟨job, .call op next⟩) :
    Grounded (seenBy tid c.log) op :=
  hc.permits (G := fun _ => Grounded) (job_grounded R) ht

/-- What was seen has its moment. -/
theorem instant_of_seen (hc : Reachable (machine R) D c)
    (h : ⟨op, answer⟩ ∈ seenBy tid c.log) : ∃ c₀, Instant R D c tid op answer c₀ := by
  obtain ⟨newer, choice, older, job, c₀, hlog, hmoment⟩ := moment_of_seen hc h
  obtain ⟨next, ht⟩ := hmoment.pending
  obtain ⟨w, hp⟩ := hmoment.performed
  obtain ⟨s, hs, hf⟩ := hmoment.reachable.follows custody Job.session (job_follows R) ht
  refine ⟨c₀, hmoment.reachable, hmoment.leads, ?_, ?_, ⟨choice, w, hp⟩,
    grounded_of_pending hmoment.reachable ht, s, hs, hf.1⟩ <;> rw [hmoment.log, hlog]
  · rw [List.length_append, List.length_cons]
    omega
  · exact (extends_seenBy tid [⟨tid, op, choice, answer⟩] older).trans
      (extends_seenBy tid newer (⟨tid, op, choice, answer⟩ :: older))

/-- What a thread has seen it still has seen later. -/
theorem seen_of_leads {c₀ : Config} (h : Leads (machine R) D c₀ c) :
    Extends (fun _ => True) (seenBy tid c₀.log) (seenBy tid c.log) := by
  induction h with
  | refl => exact Extends.refl _ _
  | tail _ hmove ih =>
      cases hmove with
      | spawn job hd => exact ih
      | act env hd => exact ih
      | @run tid' job op next choice w answer ht hp hd =>
          exact ih.trans (extends_seenBy tid [⟨tid', op, choice, answer⟩] _)

end Moments

/-! ## The lists of the world -/

/-- A list of the world that one kind of operation adds to. -/
structure Register {X : Type} (entries : World → List X) (put : X → Op) : Prop where
  environment : ∀ w env, entries (World.environment w env) = entries w
  mem_apply : ∀ w op x, x ∈ entries (World.apply w op) ↔ x ∈ entries w ∨ op = put x

theorem audit_register : Register World.audit .insertAudit where
  environment w env := by cases env <;> rfl
  mem_apply w op x := by
    cases op <;> simp only [World.apply, World.updateRow, reduceCtorEq, or_false]
    case insertAudit event =>
        rw [List.mem_cons, or_comm, eq_comm, Op.insertAudit.injEq]
    all_goals split <;> rfl

theorem authorizations_register : Register World.authorizations .signAuthorization where
  environment w env := by cases env <;> rfl
  mem_apply w op x := by
    cases op <;> simp only [World.apply, World.updateRow, reduceCtorEq, or_false]
    case signAuthorization claims =>
        rw [List.mem_cons, or_comm, eq_comm, Op.signAuthorization.injEq]
    all_goals split <;> rfl

theorem approvals_register : Register World.approvals .signApproval where
  environment w env := by cases env <;> rfl
  mem_apply w op x := by
    cases op <;> simp only [World.apply, World.updateRow, reduceCtorEq, or_false]
    case signApproval claims =>
        rw [List.mem_cons, or_comm, eq_comm, Op.signApproval.injEq]
    all_goals split <;> rfl

namespace Register

variable {R : Runtime} {D : Discipline} {c : Config} {X : Type} {entries : World → List X}
  {put : X → Op} {x : X}

theorem persists (hr : Register entries put) :
    Persists (machine R) (fun w => x ∈ entries w) where
  act w env h := by
    change x ∈ entries (w.environment env)
    rwa [hr.environment]
  perform hp h := by
    rcases World.perform_world hp with rfl | rfl
    · exact (hr.mem_apply _ _ x).2 (.inl h)
    · exact h

/-- What was put there and acknowledged is there. -/
theorem entered (hr : Register entries put) (hc : Reachable (machine R) D c) {tid : ℕ}
    {v : (put x).Val} (h : ⟨put x, .ok v⟩ ∈ seenBy tid c.log) : x ∈ entries c.world := by
  refine hc.established hr.persists (fun hp => ?_) h
  rw [(World.perform_ok hp).1]
  exact (hr.mem_apply _ _ x).2 (.inr rfl)

/-- What is there was put there. -/
theorem origin (hr : Register entries put) (hinit : ∀ w, D.initial w → entries w = [])
    (hc : Reachable (machine R) D c) (h : x ∈ entries c.world) :
    ∃ tid answer, ⟨put x, answer⟩ ∈ seenBy tid c.log := by
  have hcause : ∃ ev ∈ c.log, ev.op = put x := by
    refine hc.cause (P := fun w => x ∈ entries w) ?_ ?_ ?_ h
    · intro w hw h
      rw [hinit w hw] at h
      exact List.not_mem_nil h
    · intro w env h
      change x ∈ entries (w.environment env) at h
      rwa [hr.environment] at h
    · intro w tid op choice w' answer hp h
      rcases World.perform_world hp with rfl | rfl
      · exact (hr.mem_apply _ _ x).1 h
      · exact .inl h
  obtain ⟨⟨tid, op, choice, answer⟩, hev, hop⟩ := hcause
  subst hop
  exact ⟨tid, answer, mem_seenBy.2 ⟨_, hev, rfl, rfl⟩⟩

end Register

/-! ## The rows -/

/-- The rows agree on what was inserted and on the course the payment took. -/
structure Transaction.SameCourse (a b : Transaction) : Prop where
  asInserted : b.asInserted = a.asInserted
  state : b.state = a.state
  providerReference : b.providerReference = a.providerReference

theorem Transaction.SameCourse.refl (r : Transaction) : r.SameCourse r := ⟨rfl, rfl, rfl⟩

section Rows

variable {w w' : World} {op : Op} {o : Outcome} {answer : Except Exn op.Val}

theorem mem_updateRow {id : ℕ} {f : Transaction → Transaction} {r' : Transaction}
    (h : r' ∈ (w.updateRow id f).transactions) : ∃ r ∈ w.transactions,
      r' = r ∨ r.paymentAuthorizationId = id ∧ r' = f r := by
  obtain ⟨r, hr, rfl⟩ := List.mem_map.1 h
  refine ⟨r, hr, ?_⟩
  split
  case isTrue hid => exact .inr ⟨hid, rfl⟩
  case isFalse => exact .inl rfl

/-- Where a row comes from: it was there, it was inserted, or its state was committed. -/
theorem perform_row (h : w.perform op o = some (w', answer)) {r' : Transaction}
    (hr' : r' ∈ w'.transactions) :
    (∃ r ∈ w.transactions, r.SameCourse r') ∨ op = .insertTransaction r' ∨
    ∃ r ∈ w.transactions, ∃ target reference detail,
      op = .commitState r.paymentAuthorizationId target reference detail ∧
        r' = r.withState target reference detail := by
  have hthere : r' ∈ w.transactions → ∃ r ∈ w.transactions, r.SameCourse r' :=
    fun h => ⟨r', h, .refl r'⟩
  rcases World.perform_world h with rfl | rfl
  case inr => exact .inl (hthere hr')
  have htoken : ∀ {id : ℕ} {f : Transaction → Transaction},
      r' ∈ (w.updateRow id f).transactions → (∀ r : Transaction, r.SameCourse (f r)) →
        ∃ r ∈ w.transactions, r.SameCourse r' := by
    intro id f hr' hf
    obtain ⟨r, hr, rfl | ⟨-, rfl⟩⟩ := mem_updateRow hr'
    · exact ⟨r', hr, .refl r'⟩
    · exact ⟨r, hr, hf r⟩
  cases op
  case insertTransaction row =>
      simp only [World.apply] at hr'
      split at hr'
      · exact .inl (hthere hr')
      · rcases List.mem_cons.1 hr' with rfl | hr'
        · exact .inr (.inl rfl)
        · exact .inl (hthere hr')
  case commitToken id jti expiresAt => exact .inl (htoken hr' fun _ => ⟨rfl, rfl, rfl⟩)
  case commitUses id uses => exact .inl (htoken hr' fun _ => ⟨rfl, rfl, rfl⟩)
  case commitState id target reference detail =>
      simp only [World.apply] at hr'
      split at hr'
      · obtain ⟨r, hr, rfl | ⟨rfl, rfl⟩⟩ := mem_updateRow hr'
        · exact .inl ⟨r', hr, .refl r'⟩
        · exact .inr (.inr ⟨r, hr, target, reference, detail, rfl, rfl⟩)
      · exact .inl (hthere hr')
  all_goals
    refine .inl (hthere ?_)
    simp only [World.apply] at hr'
    first
      | exact hr'
      | (split at hr' <;> exact hr')

end Rows

section Runs

variable {R : Runtime} {D : Discipline} {c : Config}

theorem primaryKey_of_reachable (hinit : ∀ w, D.initial w → w.transactions = [])
    (hc : Reachable (machine R) D c) : c.world.PrimaryKey := by
  induction hc with
  | @initial w hw =>
      rw [World.PrimaryKey, hinit w hw]
      exact List.nodup_nil
  | spawn job _ _ ih => exact ih
  | @act c env _ _ ih =>
      change ((c.world.environment env).transactions.map _).Nodup
      rw [World.environment_transactions]
      exact ih
  | run _ _ hp _ ih => exact ih.perform hp

/-- A row that was inserted stays, as it was inserted. -/
theorem row_persists (R : Runtime) (row : Transaction) :
    Persists (machine R) (fun w => row ∈ w.transactions.map Transaction.asInserted) where
  act w env h := by
    change row ∈ (w.environment env).transactions.map Transaction.asInserted
    rwa [World.environment_transactions]
  perform hp h := recorded_perform hp h

theorem row_entered (hc : Reachable (machine R) D c) {tid : ℕ} {row : Transaction}
    (h : ⟨.insertTransaction row, .ok ()⟩ ∈ seenBy tid c.log) :
    row.asInserted ∈ c.world.transactions.map Transaction.asInserted := by
  refine hc.established (row_persists R row.asInserted) (fun hp => ?_) h
  rw [(World.perform_insert_ok hp).2, List.map_cons]
  exact List.mem_cons_self

/-- The rows of one payment were inserted as one. -/
theorem asInserted_eq (hk : c.world.PrimaryKey) {r row : Transaction}
    (hr : r ∈ c.world.transactions)
    (hrow : row ∈ c.world.transactions.map Transaction.asInserted)
    (hid : row.paymentAuthorizationId = r.paymentAuthorizationId) : r.asInserted = row := by
  obtain ⟨r', hr', rfl⟩ := List.mem_map.1 hrow
  have hfound := hk.row? hr'
  rw [show r'.paymentAuthorizationId = r.paymentAuthorizationId from hid, hk.row? hr] at hfound
  rw [Option.some.inj hfound]

/-- **The rule for rows.** What holds of a new row, what a commit that is warranted and has its
grounds brings about, and what later configurations keep holds of every row. -/
theorem row_invariant {P : Config → Transaction → Prop}
    (hinit : ∀ w, D.initial w → w.transactions = [])
    (hmoves : ∀ c c' row, Moves (machine R) D c c' → P c row → P c' row)
    (hsame : ∀ c r r', r.SameCourse r' → P c r → P c r')
    (hinsert : ∀ c txn verdict risk t, P c (newRow txn verdict risk t))
    (hcommit : ∀ c tid s r target reference detail, Reachable (machine R) D c →
      sessionOf c tid = some s → r ∈ c.world.transactions → P c r →
      (∃ current, s.read = some (r.paymentAuthorizationId, current) ∧
        target ∈ validTransitions current) → Warranted s r.paymentAuthorizationId target →
      Grounded (seenBy tid c.log)
        (.commitState r.paymentAuthorizationId target reference detail) →
      P c (r.withState target reference detail))
    (hc : Reachable (machine R) D c) : ∀ row ∈ c.world.transactions, P c row := by
  induction hc with
  | @initial w hw =>
      intro row hrow
      rw [hinit w hw] at hrow
      exact absurd hrow List.not_mem_nil
  | @spawn c job hc hd ih => exact fun row hrow => hmoves c _ row (.spawn job hd) (ih row hrow)
  | @act c env hc hd ih =>
      intro row hrow
      change row ∈ (c.world.environment env).transactions at hrow
      rw [World.environment_transactions] at hrow
      exact hmoves c _ row (.act env hd) (ih row hrow)
  | @run c tid job op next choice w answer hc ht hp hd ih =>
      intro row hrow
      refine hmoves c _ row (.run ht hp hd) ?_
      obtain ⟨s, hs, hf⟩ := hc.follows custody Job.session (job_follows R) ht
      rcases perform_row hp hrow with ⟨r, hr, hsame'⟩ | rfl |
        ⟨r, hr, target, reference, detail, rfl, rfl⟩
      · exact hsame c r row hsame' (ih r hr)
      · obtain ⟨-, txn, verdict, risk, -, -, rfl⟩ := hf.1
        exact hinsert c txn verdict risk _
      · exact hcommit c tid s r target reference detail hc hs hr (ih r hr) hf.1.1 hf.1.2
          (grounded_of_pending hc ht)

end Runs

end AgentPay.Gateway
