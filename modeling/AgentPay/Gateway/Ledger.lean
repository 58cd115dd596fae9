import AgentPay.Gateway.Custody

/-!
# The rows of the database in every run

`perform_transactions` says what an operation can do to the rows: insert one that is not refused,
write the state of one, or write columns that are neither its state nor part of the insertion. A row
that a job inserted therefore stays on record (`row_recorded`), and two jobs never hold rows that
clash (`rows_never_clash`). Identifiers are drawn once (`drawn_lt`, `drawn_disjoint`), and time does
not run backwards (`lastNow_le`).
-/

set_option autoImplicit false

namespace AgentPay.Gateway

open AgentPay.Library AgentPay.Library.Machine

/-! ## One operation -/

@[simp] theorem Transaction.asInserted_withState (target : PaymentState)
    (reference : Option Json) (detail : Option String) (r : Transaction) :
    (r.withState target reference detail).asInserted = r.asInserted := rfl

@[simp] theorem Transaction.paymentAuthorizationId_asInserted (r : Transaction) :
    r.asInserted.paymentAuthorizationId = r.paymentAuthorizationId := rfl

theorem asInserted_newRow (txn : CanonicalTransaction) (verdict : PDPResult)
    (risk : RiskAssessment) (t : Time) :
    (newRow txn verdict risk t).asInserted = newRow txn verdict risk t := rfl

/-- The rows agree on who paid, how much, when, and on what decision. -/
structure Transaction.SameInsertion (a b : Transaction) : Prop where
  id : a.paymentAuthorizationId = b.paymentAuthorizationId
  userId : a.userId = b.userId
  agentId : a.agentId = b.agentId
  amount : a.amount = b.amount
  decision : a.decision = b.decision
  createdAt : a.createdAt = b.createdAt

theorem Transaction.sameInsertion {a b : Transaction} (h : a.asInserted = b.asInserted) :
    a.SameInsertion b := by
  have hfield : ∀ {α : Type} (field : Transaction → α), field a.asInserted = field b.asInserted :=
    fun field => congrArg field h
  exact ⟨hfield Transaction.paymentAuthorizationId, hfield Transaction.userId,
    hfield Transaction.agentId, hfield Transaction.amount, hfield Transaction.decision,
    hfield Transaction.createdAt⟩

theorem Transaction.clashes_comm (a b : Transaction) : a.clashes b = b.clashes a := by
  unfold Transaction.clashes
  rw [decide_eq_decide]
  constructor <;> exact fun ⟨ha, hb, hu, hk⟩ => ⟨hb, ha, hu.symm, hk.symm⟩

namespace World

variable {w w' : World} {op : Op} {o : Outcome} {answer : Except Exn op.Val}

/-- A row is not refused when no row has its id and none clashes with it. -/
theorem refuses_eq_false {row : Transaction} : w.refuses row = false ↔ ∀ r ∈ w.transactions,
    r.paymentAuthorizationId ≠ row.paymentAuthorizationId ∧ r.clashes row = false := by
  simp [refuses]

theorem perform_clock (h : w.perform op o = some (w', answer)) : w'.clock = w.clock := by
  rcases perform_world h with rfl | rfl
  · cases op <;> simp only [World.apply, updateRow] <;> split <;> rfl
  · rfl

theorem perform_nextUuid (h : w.perform op o = some (w', answer)) : w.nextUuid ≤ w'.nextUuid := by
  rcases perform_world h with rfl | rfl
  · cases op <;> simp only [World.apply, updateRow] <;> first
      | exact Nat.le_refl _
      | exact Nat.le_succ _
      | (split <;> exact Nat.le_refl _)
  · exact Nat.le_refl _

/-- An identifier is drawn from the counter, which moves on. -/
theorem perform_uuid4 {a : Except Exn ℕ} (h : w.perform .uuid4 o = some (w', a)) :
    a = .ok w.nextUuid ∧ w'.nextUuid = w.nextUuid + 1 := by
  cases o <;> simp only [perform, Op.isLocal, answer, value, Option.map_some, Option.map_none,
    Option.some.injEq, Prod.mk.injEq, if_true, reduceCtorEq] at h
  obtain ⟨rfl, rfl⟩ := h
  exact ⟨rfl, rfl⟩

/-- The reading of the clock. -/
theorem perform_now {a : Except Exn Time} (h : w.perform .now o = some (w', a)) :
    a = .ok w.clock := by
  cases o <;> simp only [perform, Op.isLocal, answer, value, Option.map_some, Option.map_none,
    Option.some.injEq, Prod.mk.injEq, if_true, reduceCtorEq] at h
  exact h.2.symm

/-- An insertion that answered with success was not refused. -/
theorem perform_insert_ok {row : Transaction} {u : Unit}
    (h : w.perform (.insertTransaction row) o = some (w', .ok u)) :
    w.refuses row = false ∧ w'.transactions = row :: w.transactions := by
  obtain ⟨rfl, ha⟩ := perform_ok h
  cases o <;> simp only [World.answer, World.value, reduceCtorEq, Option.some.injEq] at ha
  by_cases hr : w.refuses row = true
  · rw [if_pos hr] at ha
    cases ha
  · refine ⟨Bool.eq_false_iff.2 hr, ?_⟩
    simp only [World.apply, if_neg hr]

/-- What an operation can do to the rows. -/
theorem perform_transactions (h : w.perform op o = some (w', answer)) :
    w'.transactions = w.transactions ∨
    (∃ row, op = .insertTransaction row ∧ w.refuses row = false ∧
      w'.transactions = row :: w.transactions) ∨
    (∃ id target reference detail, op = .commitState id target reference detail ∧
      w'.transactions =
        (w.updateRow id (Transaction.withState target reference detail)).transactions) ∨
    (∃ id f, (∀ r : Transaction, (f r).state = r.state ∧ (f r).asInserted = r.asInserted) ∧
      w'.transactions = (w.updateRow id f).transactions) := by
  rcases perform_world h with rfl | rfl
  · cases op
    case insertTransaction row =>
        by_cases hr : w.refuses row = true
        · exact .inl (by simp only [World.apply, if_pos hr])
        · refine .inr (.inl ⟨row, rfl, Bool.eq_false_iff.2 hr, ?_⟩)
          simp only [World.apply, if_neg hr]
    case commitToken id jti expiresAt =>
        exact .inr (.inr (.inr ⟨id, fun r => { r with
          tokenJti := some jti, tokenExpiresAt := some expiresAt }, fun _ => ⟨rfl, rfl⟩, rfl⟩))
    case commitUses id uses =>
        exact .inr (.inr (.inr ⟨id, fun r => { r with tokenUses := uses }, fun _ => ⟨rfl, rfl⟩,
          rfl⟩))
    case commitState id target reference detail =>
        by_cases hs : storable reference detail = true
        · refine .inr (.inr (.inl ⟨id, target, reference, detail, rfl, ?_⟩))
          simp only [World.apply, if_pos hs]
        · exact .inl (by simp only [World.apply, if_neg hs])
    all_goals first
      | exact .inl rfl
      | (refine .inl ?_; simp only [World.apply]; split <;> rfl)
  · exact .inl rfl

/-- The row of a payment after a change of one row. -/
theorem row?_updateRow (w : World) (id : ℕ) (f : Transaction → Transaction)
    (hf : ∀ r : Transaction, (f r).paymentAuthorizationId = r.paymentAuthorizationId) (id' : ℕ) :
    (w.updateRow id f).row? id' = (w.row? id').map fun r => if id' = id then f r else r := by
  unfold row? updateRow
  induction w.transactions with
  | nil => rfl
  | cons r rows ih =>
      have hid : (if r.paymentAuthorizationId = id then f r else r).paymentAuthorizationId =
          r.paymentAuthorizationId := by
        split
        · exact hf r
        · rfl
      rw [List.map_cons, List.find?_cons, List.find?_cons, hid]
      by_cases h : r.paymentAuthorizationId = id'
      · simp only [h, beq_self_eq_true, Option.map_some]
      · simp only [beq_false_of_ne h]
        exact ih

/-- The row of a payment after an insertion that was not refused. -/
theorem row?_of_insert {row : Transaction} (h : w'.transactions = row :: w.transactions) (id : ℕ) :
    w'.row? id = if row.paymentAuthorizationId = id then some row else w.row? id := by
  unfold row?
  rw [h, List.find?_cons]
  by_cases hid : row.paymentAuthorizationId = id
  · simp only [hid, beq_self_eq_true, if_true]
  · simp only [beq_false_of_ne hid, if_neg hid]

/-- A row that is not refused has a new id. -/
theorem row?_of_not_refused {row : Transaction} (h : w.refuses row = false) :
    w.row? row.paymentAuthorizationId = none := by
  unfold row?
  rw [List.find?_eq_none]
  intro r hr
  simpa using (refuses_eq_false.1 h r hr).1

/-- A change that keeps what was inserted keeps it in every row. -/
theorem asInserted_updateRow (w : World) (id : ℕ) {f : Transaction → Transaction}
    (hf : ∀ r : Transaction, (f r).asInserted = r.asInserted) :
    (w.updateRow id f).transactions.map Transaction.asInserted =
      w.transactions.map Transaction.asInserted := by
  simp only [updateRow, List.map_map]
  apply List.map_congr_left
  intro r _
  simp only [Function.comp]
  split
  · exact hf r
  · rfl

/-- An operation keeps the rows as they were inserted, and may add one that is not refused. -/
theorem perform_asInserted (h : w.perform op o = some (w', answer)) :
    w'.transactions.map Transaction.asInserted = w.transactions.map Transaction.asInserted ∨
    ∃ row, op = .insertTransaction row ∧ w.refuses row = false ∧
      w'.transactions = row :: w.transactions := by
  rcases perform_transactions h with heq | ⟨row, hrow⟩ | ⟨id, target, reference, detail, -, heq⟩ |
    ⟨id, f, hf, heq⟩
  · exact .inl (by rw [heq])
  · exact .inr ⟨row, hrow⟩
  · left
    rw [heq, asInserted_updateRow w id fun r => r.asInserted_withState target reference detail]
  · left
    rw [heq, asInserted_updateRow w id fun r => (hf r).2]

/-- No two rows share their key. -/
def PrimaryKey (w : World) : Prop :=
  (w.transactions.map Transaction.paymentAuthorizationId).Nodup

theorem PrimaryKey.perform (hk : w.PrimaryKey) (h : w.perform op o = some (w', answer)) :
    w'.PrimaryKey := by
  have hkeys : ∀ l : List Transaction, l.map Transaction.paymentAuthorizationId =
      (l.map Transaction.asInserted).map Transaction.paymentAuthorizationId := by
    intro l
    rw [List.map_map]
    rfl
  unfold PrimaryKey
  rcases perform_asInserted h with heq | ⟨row, -, hrefuses, heq⟩
  · rw [hkeys, heq, ← hkeys]
    exact hk
  · rw [heq, List.map_cons, List.nodup_cons]
    refine ⟨?_, hk⟩
    intro hmem
    obtain ⟨r, hr, hid⟩ := List.mem_map.1 hmem
    exact (refuses_eq_false.1 hrefuses r hr).1 hid

/-- A key determines its row. -/
theorem PrimaryKey.row? (hk : w.PrimaryKey) {r : Transaction} (hr : r ∈ w.transactions) :
    w.row? r.paymentAuthorizationId = some r := by
  unfold PrimaryKey at hk
  unfold World.row?
  generalize w.transactions = rows at hk hr ⊢
  induction rows with
  | nil => exact absurd hr List.not_mem_nil
  | cons a rows ih =>
      rw [List.map_cons, List.nodup_cons] at hk
      rcases List.mem_cons.1 hr with rfl | hr
      · simp only [List.find?_cons, beq_self_eq_true]
      · have hne : a.paymentAuthorizationId ≠ r.paymentAuthorizationId := by
          intro h
          exact hk.1 (h ▸ List.mem_map_of_mem hr)
        simp only [List.find?_cons, beq_false_of_ne hne]
        exact ih hk.2 hr

/-- The environment leaves the rows alone. -/
theorem environment_transactions (w : World) (env : Env) :
    (w.environment env).transactions = w.transactions := by
  cases env <;> rfl

theorem environment_nextUuid (w : World) (env : Env) :
    (w.environment env).nextUuid = w.nextUuid := by
  cases env <;> rfl

theorem le_environment_clock (w : World) (env : Env) : w.clock ≤ (w.environment env).clock := by
  cases env <;> first | exact Nat.le_refl _ | exact Nat.le_add_right _ _

end World

/-! ## Runs -/

section Next

variable {op : Op} (answer : Except Exn op.Val) (s : Session)

theorem row_next_of_ne (h : ∀ row, op ≠ .insertTransaction row) :
    (s.next op answer).row = s.row := by
  cases op
  case insertTransaction row => exact absurd rfl (h row)
  case commitState id target reference detail => cases target <;> cases answer <;> rfl
  all_goals cases answer <;> rfl

theorem drawn_next_of_ne (h : op ≠ .uuid4) : (s.next op answer).drawn = s.drawn := by
  cases op
  case uuid4 => exact absurd rfl h
  case commitState id target reference detail => cases target <;> cases answer <;> rfl
  all_goals cases answer <;> rfl

theorem lastNow_next_of_ne (h : op ≠ .now) : (s.next op answer).lastNow = s.lastNow := by
  cases op
  case now => exact absurd rfl h
  case commitState id target reference detail => cases target <;> cases answer <;> rfl
  all_goals cases answer <;> rfl

end Next

section Runs

variable {R : Runtime} {D : Discipline} {c : Config} {tid tid' : ℕ} {s s' : Session}

/-- Identifiers are drawn below the counter. -/
theorem drawn_lt (hc : Reachable (machine R) D c) (hs : sessionOf c tid = some s) :
    ∀ n ∈ s.drawn, n < c.world.nextUuid := by
  refine hc.thread_invariant custody Job.session (job_follows R)
    (I := fun w s => ∀ n ∈ s.drawn, n < w.nextUuid) ?_ ?_ ?_ ?_ hs
  · intro c job _ n hn
    cases job <;> cases hn
  · intro c env s _ _ h n hn
    exact (h n hn).trans_eq (c.world.environment_nextUuid env).symm
  · intro c tid s op o w answer _ hp h n hn
    by_cases hop : op = .uuid4
    · subst hop
      obtain ⟨rfl, hw⟩ := World.perform_uuid4 hp.perform
      rcases List.mem_cons.1 hn with rfl | hn
      · omega
      · have := h n hn
        omega
    · rw [show (custody.next s op answer).drawn = s.drawn from drawn_next_of_ne answer s hop] at hn
      exact (h n hn).trans_le (World.perform_nextUuid hp.perform)
  · intro c tid s op o w answer tid' s' _ hp _ _ h n hn
    exact (h n hn).trans_le (World.perform_nextUuid hp.perform)

/-- No identifier is drawn by two jobs. -/
theorem drawn_disjoint (hc : Reachable (machine R) D c) (hne : tid ≠ tid')
    (hs : sessionOf c tid = some s) (hs' : sessionOf c tid' = some s') :
    ∀ n ∈ s.drawn, n ∉ s'.drawn := by
  refine hc.pair_invariant custody Job.session (job_follows R)
    (I := fun _ s s' => ∀ n ∈ s.drawn, n ∉ s'.drawn) ?_ ?_ ?_ ?_ ?_ hne hs hs'
  · exact fun _ _ _ h n hn hn' => h n hn' hn
  · intro c job tid s _ _ n _ hn
    cases job <;> cases hn
  · exact fun _ _ _ _ _ _ h => h
  · intro c tid s op o w answer tid' s' hc hp _ hs' h n hn hn'
    by_cases hop : op = .uuid4
    · subst hop
      obtain ⟨rfl, -⟩ := World.perform_uuid4 hp.perform
      rcases List.mem_cons.1 hn with rfl | hn
      · exact (drawn_lt hc hs' _ hn').ne rfl
      · exact h n hn hn'
    · rw [show (custody.next s op answer).drawn = s.drawn from drawn_next_of_ne answer s hop] at hn
      exact h n hn hn'
  · exact fun _ _ _ _ _ _ _ _ _ _ _ h => h

/-- A clock reading is not ahead of the clock. -/
theorem lastNow_le (hc : Reachable (machine R) D c) (hs : sessionOf c tid = some s) :
    s.lastNow ≤ c.world.clock := by
  refine hc.thread_invariant custody Job.session (job_follows R)
    (I := fun w s => s.lastNow ≤ w.clock) ?_ ?_ ?_ ?_ hs
  · intro c job _
    cases job <;> exact Nat.zero_le _
  · exact fun c env s _ _ h => h.trans (c.world.le_environment_clock env)
  · intro c tid s op o w answer _ hp h
    rw [World.perform_clock hp.perform]
    by_cases hop : op = .now
    · subst hop
      rw [World.perform_now hp.perform]
      exact Nat.le_refl _
    · exact (lastNow_next_of_ne answer s hop).trans_le h
  · intro c tid s op o w answer tid' s' _ hp _ _ h
    rwa [World.perform_clock hp.perform]

/-- A row stays on record whatever is performed. -/
theorem recorded_perform {w w' : World} {op : Op} {o : Outcome} {answer : Except Exn op.Val}
    {row : Transaction} (hp : w.perform op o = some (w', answer))
    (h : row ∈ w.transactions.map Transaction.asInserted) :
    row ∈ w'.transactions.map Transaction.asInserted := by
  rcases World.perform_asInserted hp with heq | ⟨new, -, -, heq⟩
  · rwa [heq]
  · rw [heq, List.map_cons]
    exact List.mem_cons_of_mem _ h

/-- The row a job inserted is on record, as it was inserted. -/
theorem row_recorded (hc : Reachable (machine R) D c) (hs : sessionOf c tid = some s)
    {row : Transaction} (hrow : s.row = some row) :
    row ∈ c.world.transactions.map Transaction.asInserted := by
  refine hc.thread_invariant custody Job.session (job_follows R)
    (I := fun w s => ∀ row, s.row = some row → row ∈ w.transactions.map Transaction.asInserted)
    ?_ ?_ ?_ ?_ hs row hrow
  · intro c job _ row hrow
    cases job <;> cases hrow
  · intro c env s _ _ h row hrow
    change row ∈ (c.world.environment env).transactions.map Transaction.asInserted
    rw [World.environment_transactions]
    exact h row hrow
  · intro c tid s op o w answer _ hp h row hrow
    by_cases hop : ∃ new, op = .insertTransaction new
    · obtain ⟨new, rfl⟩ := hop
      cases answer with
      | error e => exact recorded_perform hp.perform (h row hrow)
      | ok u =>
          cases hrow
          obtain ⟨-, txn, verdict, risk, -, -, rfl⟩ := hp.guard
          rw [(World.perform_insert_ok hp.perform).2, List.map_cons]
          exact List.mem_cons_self
    · rw [show (custody.next s op answer).row = s.row from
        row_next_of_ne answer s fun new h => hop ⟨new, h⟩] at hrow
      exact recorded_perform hp.perform (h row hrow)
  · exact fun c tid s op o w answer tid' s' _ hp _ _ h row hrow =>
      recorded_perform hp.perform (h row hrow)

/-- The rows of two jobs never clash. -/
theorem rows_never_clash (hc : Reachable (machine R) D c) (hne : tid ≠ tid')
    (hs : sessionOf c tid = some s) (hs' : sessionOf c tid' = some s') {row row' : Transaction}
    (hrow : s.row = some row) (hrow' : s'.row = some row') : row.clashes row' = false := by
  refine hc.pair_invariant custody Job.session (job_follows R)
    (I := fun _ s s' => ∀ row row', s.row = some row → s'.row = some row' →
      row.clashes row' = false) ?_ ?_ ?_ ?_ ?_ hne hs hs' row row' hrow hrow'
  · exact fun _ s s' h row row' hrow hrow' =>
      (row.clashes_comm row').trans (h row' row hrow' hrow)
  · intro c job tid s _ _ row row' _ hrow'
    cases job <;> cases hrow'
  · exact fun _ _ _ _ _ _ h => h
  · intro c tid s op o w answer tid' s' hc hp _ hs' h row row' hrow hrow'
    by_cases hop : ∃ new, op = .insertTransaction new
    · obtain ⟨new, rfl⟩ := hop
      cases answer with
      | error e => exact h row row' hrow hrow'
      | ok u =>
          cases hrow
          obtain ⟨hrefuses, -⟩ := World.perform_insert_ok hp.perform
          obtain ⟨r, hr, rfl⟩ := List.mem_map.1 (row_recorded hc hs' hrow')
          exact (row.clashes_comm _).trans ((World.refuses_eq_false.1 hrefuses) r hr).2
    · rw [show (custody.next s op answer).row = s.row from
        row_next_of_ne answer s fun new h => hop ⟨new, h⟩] at hrow
      exact h row row' hrow hrow'
  · exact fun _ _ _ _ _ _ _ _ _ _ _ h => h

end Runs

end AgentPay.Gateway
