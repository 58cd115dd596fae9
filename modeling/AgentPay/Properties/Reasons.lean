import AgentPay.Gateway.Provenance
import AgentPay.Properties.Scenario

/-!
# Every state of a payment has its reason

In a run from an empty table the state of a payment says what happened to it. A payment that left
`CREATED` otherwise than to `FAILED` was allowed; one that is `TIMEOUT`, `UNKNOWN` or `CONFIRMED`
was charged under a credential signed for it; a `CONFIRMED` one was confirmed by the provider, under
the reference it carries; a `FAILED` one was blocked by the policy, or refused or unknown to the
provider; and an `EXPIRED` one was once authorized with a credential whose time had run out
(`states_have_reasons`).
-/

set_option autoImplicit false

namespace AgentPay.Properties

open AgentPay.Library AgentPay.Library.Machine AgentPay.Gateway

/-! ## Reasons -/

/-- The reply to a charge for the payment was received. -/
def ChargeAnswered (c : Config) (id : ℕ) (reply : ProviderReply) : Prop :=
  ∃ tid, ⟨.awaitCharge id, .ok reply⟩ ∈ seenBy tid c.log

/-- The reply to a query about the payment was received. -/
def QueryAnswered (c : Config) (id : ℕ) (reply : ProviderReply) : Prop :=
  ∃ tid, ⟨.awaitQuery id, .ok reply⟩ ∈ seenBy tid c.log

/-- A charge for the payment was sent, under a credential signed for it. -/
def ChargeSent (c : Config) (id : ℕ) : Prop :=
  ∃ tid token body answer, ⟨.sendCharge token body, answer⟩ ∈ seenBy tid c.log ∧
    token ∈ c.world.authorizations ∧ token.paymentAuthorizationId = id ∧
    body.paymentAuthorizationId = id

/-- The payment was authorized at some moment when the time of its credential had run out. -/
def Elapsed (R : Runtime) (D : Discipline) (c : Config) (id : ℕ) : Prop :=
  ∃ c₀, Reachable (machine R) D c₀ ∧ Leads (machine R) D c₀ c ∧ ∃ row ∈ c₀.world.transactions,
    row.paymentAuthorizationId = id ∧ row.state = .authorized ∧
      ∃ t, row.tokenExpiresAt = some t ∧ t < c₀.world.clock

/-- The reason for the state of a row. -/
def Reason (R : Runtime) (D : Discipline) (c : Config) (row : Transaction) : Prop :=
  let id := row.paymentAuthorizationId
  match row.state with
  | .created => True
  | .authorized | .submitted => row.decision = .allow
  | .timeout | .unknown => row.decision = .allow ∧ ChargeSent c id
  | .confirmed => row.decision = .allow ∧ ChargeSent c id ∧
      ∃ reply reference, (ChargeAnswered c id reply ∨ QueryAnswered c id reply) ∧
        reply.Confirms (some reference) ∧
        ∀ text, reference = .str text → text ≠ "" → row.providerReference = some text
  | .failed => row.decision = .block ∨ row.decision = .allow ∧ ChargeSent c id ∧
      ∃ reply, ChargeAnswered c id reply ∧ reply.RefusesCharge ∨
        QueryAnswered c id reply ∧ reply.DeniesCharge
  | .expired => row.decision = .allow ∧ Elapsed R D c id

section Runs

variable {R : Runtime} {D : Discipline} {c c' : Config}

/-! ## Later configurations -/

theorem ChargeAnswered.leads {id : ℕ} {reply : ProviderReply} (h : ChargeAnswered c id reply)
    (hleads : Leads (machine R) D c c') : ChargeAnswered c' id reply := by
  obtain ⟨tid, hmem⟩ := h
  exact ⟨tid, (seen_of_leads hleads).mem hmem⟩

theorem QueryAnswered.leads {id : ℕ} {reply : ProviderReply} (h : QueryAnswered c id reply)
    (hleads : Leads (machine R) D c c') : QueryAnswered c' id reply := by
  obtain ⟨tid, hmem⟩ := h
  exact ⟨tid, (seen_of_leads hleads).mem hmem⟩

theorem ChargeSent.leads {id : ℕ} (h : ChargeSent c id) (hleads : Leads (machine R) D c c') :
    ChargeSent c' id := by
  obtain ⟨tid, token, body, answer, hmem, htoken, hrest⟩ := h
  exact ⟨tid, token, body, answer, (seen_of_leads hleads).mem hmem,
    hleads.persists authorizations_register.persists htoken, hrest⟩

theorem Reason.leads {row : Transaction} (h : Reason R D c row)
    (hleads : Leads (machine R) D c c') : Reason R D c' row := by
  unfold Reason at h ⊢
  cases hstate : row.state <;> simp only [hstate] at h ⊢
  case authorized | submitted => exact h
  case timeout | unknown => exact ⟨h.1, h.2.leads hleads⟩
  case confirmed =>
      obtain ⟨hallow, hsent, reply, reference, hanswered, hconfirms⟩ := h
      exact ⟨hallow, hsent.leads hleads, reply, reference,
        hanswered.imp (·.leads hleads) (·.leads hleads), hconfirms⟩
  case failed =>
      refine h.imp_right fun ⟨hallow, hsent, reply, hreply⟩ =>
        ⟨hallow, hsent.leads hleads, reply, ?_⟩
      exact hreply.imp (fun h => ⟨h.1.leads hleads, h.2⟩) fun h => ⟨h.1.leads hleads, h.2⟩
  case expired =>
      obtain ⟨hallow, c₀, hc₀, h₀, hrest⟩ := h
      exact ⟨hallow, c₀, hc₀, h₀.trans hleads, hrest⟩

/-- The reason is one for every row of the same course. -/
theorem Reason.congr {row row' : Transaction} (h : Reason R D c row)
    (hsame : row.SameCourse row') : Reason R D c row' := by
  have hinsertion := Transaction.sameInsertion hsame.asInserted
  unfold Reason at h ⊢
  rw [hsame.state, hsame.providerReference, hinsertion.id, hinsertion.decision]
  exact h

/-! ## The row of a job -/

/-- A job holds the one row it has seen inserted. -/
theorem row_of_seen (hc : Reachable (machine R) D c) {tid : ℕ} {s : Session}
    (hs : sessionOf c tid = some s) {row : Transaction}
    (h : ⟨.insertTransaction row, .ok ()⟩ ∈ seenBy tid c.log) : s.row = some row := by
  refine Reachable.invariant custody Job.session (job_follows R)
    (I := fun c => ∀ tid s row, sessionOf c tid = some s →
      ⟨.insertTransaction row, .ok ()⟩ ∈ seenBy tid c.log → s.row = some row)
    ?_ ?_ ?_ ?_ hc tid s row hs h
  · exact fun _ _ _ _ _ _ h => absurd h List.not_mem_nil
  · intro c job hc ih _ heq tid s row hs h
    refine ih tid s row ?_ h
    obtain ⟨ev, hev, rfl, -⟩ := mem_seenBy.1 h
    rw [sessionOf, heq, Function.update_of_ne (hc.proper ev hev).ne] at hs
    exact hs
  · exact fun _ _ _ ih _ => ih
  · intro c tid s job op next o w answer hc ih ht hp heq tid' s' row hs' h
    rw [sessionOf, heq, Function.update_apply] at hs'
    split at hs'
    case isFalse hne =>
        refine ih tid' s' row hs' ?_
        rwa [Config.advance, seenBy_cons_of_ne (Ne.symm hne)] at h
    case isTrue htid =>
        subst htid
        cases hs'
        rw [Config.advance, seenBy_cons_self (⟨tid', op, o, answer⟩ : Event)] at h
        rcases List.mem_cons.1 h with heq' | h
        · cases heq'
          rfl
        · have hrow := ih tid' s row hp.session h
          by_cases hop : ∃ new, op = .insertTransaction new
          · obtain ⟨new, rfl⟩ := hop
            cases hrow.symm.trans hp.guard.1
          · exact (row_next_of_ne answer s fun new h => hop ⟨new, h⟩).trans hrow

/-- The row of a job that owns a credential is the allowed one of the payment. -/
theorem allowed_of_owns (hk : c.world.PrimaryKey) (hc : Reachable (machine R) D c) {tid id : ℕ}
    {s : Session} (hs : sessionOf c tid = some s) (howns : OwnsIssued s id) {r : Transaction}
    (hr : r ∈ c.world.transactions) (hid : r.paymentAuthorizationId = id) :
    r.decision = .allow := by
  obtain ⟨-, row, hrow, rowId, hallow⟩ := howns
  rw [← hallow, ← asInserted_eq hk hr (row_recorded hc hs hrow) (rowId.trans hid.symm)]
  rfl

/-- A job that sent a charge sent it for its own payment, under its own credential. -/
theorem sent_of_charged (hc : Reachable (machine R) D c) {tid id : ℕ} {s : Session}
    (hs : sessionOf c tid = some s) (howns : OwnsIssued s id) (hcharged : s.charged = true) :
    ChargeSent c id := by
  obtain ⟨-, row, hrow, rowId, -⟩ := howns
  obtain ⟨token, body, answer, hsent⟩ := charge_seen hs hcharged
  obtain ⟨c₀, h₀⟩ := instant_of_seen hc hsent
  obtain ⟨s₀, hs₀, -, -, hissued, row₀, txn, hrow₀, -, -, -, htoken, -, hbody⟩ := h₀.custody
  -- the row at that moment is the one the job still holds
  have hseen : ⟨.insertTransaction row₀, .ok ()⟩ ∈ seenBy tid c.log :=
    h₀.seen.mem (seen_of_holding hs₀ (e := ⟨.insertTransaction row₀, .ok ()⟩) hrow₀)
  cases hrow.symm.trans (row_of_seen hc hs hseen)
  have hsigned : ⟨.signAuthorization token, .ok ()⟩ ∈ seenBy tid c.log :=
    h₀.seen.mem (seen_of_holding hs₀ (e := ⟨.signAuthorization token, .ok ()⟩) hissued)
  exact ⟨tid, token, body, answer, hsent, authorizations_register.entered hc hsigned,
    htoken.trans rowId, hbody.trans rowId⟩

/-! ## Payments on their way -/

/-- What a job that moves a payment on vouches for. -/
def OnItsWay (c : Config) (row : Transaction) : Prop :=
  (row.state ∈ [.authorized, .submitted, .timeout, .unknown] → row.decision = .allow) ∧
    (row.state ∈ [.timeout, .unknown] → ChargeSent c row.paymentAuthorizationId)

variable (hinit : ∀ w, D.initial w → w.transactions = [])

include hinit

/-- A payment on its way was allowed, and one the provider left open was charged. -/
theorem on_its_way (hc : Reachable (machine R) D c) :
    ∀ row ∈ c.world.transactions, OnItsWay c row := by
  refine row_invariant hinit (P := OnItsWay) ?_ ?_ ?_ ?_ hc
  · exact fun c c' row hmove h => ⟨h.1, fun hstate => (h.2 hstate).leads (.single hmove)⟩
  · intro c r r' hsame h
    have hinsertion := Transaction.sameInsertion hsame.asInserted
    unfold OnItsWay
    rw [hsame.state, hinsertion.decision, hinsertion.id]
    exact h
  · exact fun c txn verdict risk t =>
      ⟨fun h => absurd h (by decide : PaymentState.created ∉ _),
        fun h => absurd h (by decide : PaymentState.created ∉ _)⟩
  · intro c tid s r target reference detail hc hs hr _ _ hwarranted _
    have hk := primaryKey_of_reachable hinit hc
    cases target
    case authorized | submitted =>
        have hallow := allowed_of_owns hk hc hs hwarranted.1 hr rfl
        exact ⟨fun _ => hallow, fun h => absurd h (by simp [Transaction.withState])⟩
    case timeout | unknown =>
        have hallow := allowed_of_owns hk hc hs hwarranted.1 hr rfl
        exact ⟨fun _ => hallow, fun _ => sent_of_charged hc hs hwarranted.1 hwarranted.2⟩
    all_goals exact ⟨fun h => absurd h (by simp [Transaction.withState]),
      fun h => absurd h (by simp [Transaction.withState])⟩

omit hinit in
/-- The payment was allowed and charged. -/
structure Charged (c : Config) (id : ℕ) : Prop where
  allowed : ∃ row ∈ c.world.transactions.map Transaction.asInserted,
    row.paymentAuthorizationId = id ∧ row.decision = .allow
  sent : ChargeSent c id

omit hinit in
theorem Charged.leads {id : ℕ} (h : Charged c id) (hleads : Leads (machine R) D c c') :
    Charged c' id where
  allowed := by
    obtain ⟨row, hrow, hrest⟩ := h.allowed
    exact ⟨row, Leads.persists (row_persists R row) hleads hrow, hrest⟩
  sent := h.sent.leads hleads

omit hinit in
theorem Charged.decision (hk : c.world.PrimaryKey) {r : Transaction}
    (h : Charged c r.paymentAuthorizationId) (hr : r ∈ c.world.transactions) :
    r.decision = .allow := by
  obtain ⟨row, hrow, hid, hallow⟩ := h.allowed
  rw [← hallow, ← asInserted_eq hk hr hrow hid]
  rfl

/-- A payment a job works on as open was allowed and charged. -/
theorem charged_of_unknowns (hc : Reachable (machine R) D c) {tid id : ℕ} {s : Session}
    (hs : sessionOf c tid = some s) (hid : id ∈ s.unknowns) : Charged c id := by
  obtain ⟨cutoff, pending, hseen, hid⟩ := unknowns_seen hs hid
  obtain ⟨c₀, h₀⟩ := instant_of_seen hc hseen
  obtain ⟨choice, w, hp⟩ := h₀.performed
  obtain ⟨-, hanswer⟩ := World.perform_ok hp
  -- the list is that of the open rows at that moment
  obtain ⟨r₀, hr₀, hstate, rfl⟩ : ∃ r₀ ∈ c₀.world.transactions, r₀.state = .unknown ∧
      r₀.paymentAuthorizationId = id := by
    cases choice <;> simp only [World.answer, World.value, Option.some.injEq, Except.ok.injEq,
      reduceCtorEq] at hanswer
    subst hanswer
    obtain ⟨⟨id', key⟩, hmem, rfl⟩ := List.mem_map.1 hid
    obtain ⟨r₀, hr₀, heq⟩ := List.mem_map.1 hmem
    cases heq
    obtain ⟨hr₀, hstate⟩ := List.mem_filter.1 hr₀
    rw [Bool.and_eq_true] at hstate
    exact ⟨r₀, hr₀, of_decide_eq_true hstate.1, rfl⟩
  have hopen := on_its_way hinit h₀.reachable r₀ hr₀
  refine Charged.leads ⟨⟨r₀.asInserted, List.mem_map_of_mem hr₀, rfl, ?_⟩, ?_⟩ h₀.leads
  · exact hopen.1 (by simp [hstate])
  · exact hopen.2 (by simp [hstate])

/-- A payment about which the provider replied was allowed and charged. -/
theorem charged_of_reply (hc : Reachable (machine R) D c) {tid id : ℕ} {reply : ProviderReply}
    (hseen : ⟨.awaitCharge id, .ok reply⟩ ∈ seenBy tid c.log ∨
      ⟨.awaitQuery id, .ok reply⟩ ∈ seenBy tid c.log) : Charged c id := by
  rcases hseen with hseen | hseen
  · obtain ⟨c₀, h₀⟩ := instant_of_seen hc hseen
    obtain ⟨token, body, hsent, rfl⟩ := h₀.grounded
    obtain ⟨c₁, h₁⟩ := instant_of_seen h₀.reachable hsent
    obtain ⟨s₁, hs₁, -, -, hissued, row, txn, hrow, -, -, -, htoken, -, hbody⟩ := h₁.custody
    obtain ⟨_, hrow', hallow, -⟩ := (session_sound h₁.reachable hs₁).credential token hissued
    cases hrow.symm.trans hrow'
    have hsigned : ⟨.signAuthorization token, .ok ()⟩ ∈ seenBy tid c₁.log :=
      seen_of_holding hs₁ (e := ⟨.signAuthorization token, .ok ()⟩) hissued
    have hinserted := row_recorded h₁.reachable hs₁ hrow
    refine ⟨⟨row, Leads.persists (row_persists R row) (h₁.leads.trans h₀.leads) hinserted,
      hbody.symm, hallow⟩, tid, token, body, .ok (), h₀.seen.mem hsent, ?_,
      htoken.trans hbody.symm, rfl⟩
    exact authorizations_register.entered hc (h₀.seen.mem (h₁.seen.mem hsigned))
  · obtain ⟨c₀, h₀⟩ := instant_of_seen hc hseen
    obtain ⟨c₁, h₁⟩ := instant_of_seen h₀.reachable h₀.grounded
    obtain ⟨s₁, hs₁, hunknown⟩ := h₁.custody
    exact (charged_of_unknowns hinit h₁.reachable hs₁ hunknown).leads (h₁.leads.trans h₀.leads)

omit hinit in
theorem clock_persists (R : Runtime) (now : Time) :
    Persists (machine R) (fun w => now ≤ w.clock) where
  act w env h := h.trans (w.le_environment_clock env)
  perform hp h := h.trans_eq (World.perform_clock hp).symm

omit hinit in
/-- A payment a sweep works on was authorized once, and the time of its credential had run out. -/
theorem elapsed_of_stale (hc : Reachable (machine R) D c) {tid id : ℕ} {s : Session} {now : Time}
    {stale : List ℕ} (hs : sessionOf c tid = some s) (hstale : s.stale = some (now, stale))
    (hid : id ∈ stale) : Elapsed R D c id := by
  have hseen := seen_of_holding hs (e := ⟨.selectStale now, .ok stale⟩) hstale
  obtain ⟨c₀, h₀⟩ := instant_of_seen hc hseen
  obtain ⟨choice, w, hp⟩ := h₀.performed
  obtain ⟨-, hanswer⟩ := World.perform_ok hp
  have hclock : now ≤ c₀.world.clock := by
    refine h₀.reachable.established (clock_persists R now) (fun hp => ?_) h₀.grounded
    rw [World.perform_clock hp]
    exact (Except.ok.inj (World.perform_now hp)).le
  cases choice <;> simp only [World.answer, World.value, Option.some.injEq, Except.ok.injEq,
    reduceCtorEq] at hanswer
  subst hanswer
  obtain ⟨r₀, hr₀, rfl⟩ := List.mem_map.1 hid
  obtain ⟨hr₀, hstate⟩ := List.mem_filter.1 hr₀
  rw [Bool.and_eq_true, Option.any_eq_true] at hstate
  obtain ⟨hstate, t, ht, hlt⟩ := hstate
  exact ⟨c₀, h₀.reachable, h₀.leads, r₀, hr₀, rfl, of_decide_eq_true hstate, t, ht,
    (of_decide_eq_true hlt).trans_le hclock⟩

omit hinit in
theorem Elapsed.allowed (hinit : ∀ w, D.initial w → w.transactions = [])
    (hc : Reachable (machine R) D c) {r : Transaction} (h : Elapsed R D c r.paymentAuthorizationId)
    (hr : r ∈ c.world.transactions) : r.decision = .allow := by
  obtain ⟨c₀, hc₀, hleads, r₀, hr₀, hid, hstate, -⟩ := h
  have hrow := Leads.persists (row_persists R r₀.asInserted) hleads (List.mem_map_of_mem hr₀)
  have hsame := asInserted_eq (primaryKey_of_reachable hinit hc) hr hrow hid
  rw [(Transaction.sameInsertion hsame).decision]
  exact (on_its_way hinit hc₀ r₀ hr₀).1 (by simp [hstate])

/-- The reason for the state of a row is kept by every step, and given by every commit. -/
theorem reason_of_row (hc : Reachable (machine R) D c) {row : Transaction}
    (hrow : row ∈ c.world.transactions) : Reason R D c row := by
  refine row_invariant hinit (P := Reason R D) ?_ ?_ ?_ ?_ hc row hrow
  · exact fun c c' row hmove h => h.leads (.single hmove)
  · exact fun c r r' hsame h => h.congr hsame
  · exact fun c txn verdict risk t => trivial
  · intro c tid s r target reference detail hc hs hr _ _ hwarranted hgrounded
    have hk := primaryKey_of_reachable hinit hc
    have hreply : ∀ {reply}, (⟨.awaitCharge r.paymentAuthorizationId, .ok reply⟩ ∈
        seenBy tid c.log ∨ ⟨.awaitQuery r.paymentAuthorizationId, .ok reply⟩ ∈ seenBy tid c.log) →
          r.decision = .allow ∧ ChargeSent c r.paymentAuthorizationId := fun hseen =>
      have hcharged := charged_of_reply hinit hc hseen
      ⟨hcharged.decision hk hr, hcharged.sent⟩
    cases target
    case created => trivial
    case authorized | submitted =>
        have hallow := allowed_of_owns hk hc hs hwarranted.1 hr rfl
        exact hallow
    case timeout | unknown =>
        have hallow := allowed_of_owns hk hc hs hwarranted.1 hr rfl
        exact ⟨hallow, sent_of_charged hc hs hwarranted.1 hwarranted.2⟩
    case confirmed =>
        -- the reference is that of the reply, unless the reply has none that is a text
        obtain ⟨reply, hseen, hconfirms⟩ := hgrounded
        obtain ⟨hallow, hsent⟩ := hreply hseen
        obtain ⟨hstatus, fields, hfields, hconfirmed, rfl⟩ := hconfirms
        refine ⟨hallow, hsent, reply, _, ?_, ⟨hstatus, fields, hfields, hconfirmed, rfl⟩, ?_⟩
        · exact hseen.imp (fun h => ⟨tid, h⟩) fun h => ⟨tid, h⟩
        · intro text htext hne
          rw [htext]
          exact if_neg hne
    case failed =>
        rcases hwarranted with ⟨row, hrow, hid, hblock⟩ | ⟨-, -, reply, hreceived, hrefuses⟩ |
          ⟨-, reply, hreceived, hdenies⟩
        · refine .inl ?_
          change r.decision = .block
          rw [← hblock, ← asInserted_eq hk hr (row_recorded hc hs hrow) hid]
          rfl
        · have hseen := seen_of_holding hs (e := ⟨.awaitCharge r.paymentAuthorizationId, .ok reply⟩)
            hreceived
          obtain ⟨hallow, hsent⟩ := hreply (.inl hseen)
          exact .inr ⟨hallow, hsent, reply, .inl ⟨⟨tid, hseen⟩, hrefuses⟩⟩
        · have hseen := seen_of_holding hs (e := ⟨.awaitQuery r.paymentAuthorizationId, .ok reply⟩)
            hreceived
          obtain ⟨hallow, hsent⟩ := hreply (.inr hseen)
          exact .inr ⟨hallow, hsent, reply, .inr ⟨⟨tid, hseen⟩, hdenies⟩⟩
    case expired =>
        obtain ⟨now, stale, hstale, hid⟩ := hwarranted
        have helapsed := elapsed_of_stale hc hs hstale hid
        exact ⟨helapsed.allowed hinit hc hr, helapsed⟩

/-- **Every state of a payment has its reason.** -/
theorem states_have_reasons (hc : Reachable (machine R) D c) :
    ∀ row ∈ c.world.transactions, Reason R D c row :=
  fun _ hrow => reason_of_row hinit hc hrow

end Runs

/-! ## A run -/

/-- Nothing has been stored, recorded or signed. -/
structure Untouched (w : World) : Prop where
  kv : w.kv = []
  transactions : w.transactions = []
  audit : w.audit = []
  authorizations : w.authorizations = []
  approvals : w.approvals = []

/-- Runs from an untouched world. -/
def fromScratch : Discipline where
  initial := Untouched

theorem fromScratch_checked : fromScratch.Checked {} :=
  ⟨fun _ _ => trivial, fun _ _ _ => trivial, fun _ _ _ => trivial⟩

theorem untouched_world (p : SpendingPolicy) : Untouched (Scenario.world p) :=
  ⟨rfl, rfl, rfl, rfl, rfl⟩

/-- A payment that is confirmed. -/
theorem states_have_reasons_paid : ∃ c : Config,
    Reachable (machine Scenario.runtime) fromScratch c ∧
    c.world.transactions.map Transaction.state = [.confirmed] ∧
    ∀ row ∈ c.world.transactions, Reason Scenario.runtime fromScratch c row := by
  have hrun : executes Scenario.runtime {} (Scenario.world (Scenario.policy "u" 200 10))
      ([Scenario.request Scenario.firstOrder true] ++
        steps 0 (Scenario.toInsertion ++ oks 29 ++ [Scenario.confirmed] ++ oks 2))
      (fun c => c.world.transactions.map Transaction.state = [.confirmed]) = true := by
    decide +kernel
  obtain ⟨c, hc, hstate⟩ := exists_reachable_checked fromScratch_checked (untouched_world _) hrun
  exact ⟨c, hc, hstate, states_have_reasons (fun _ h => h.transactions) hc⟩

end AgentPay.Properties
