import AgentPay.Library.SumWhere
import AgentPay.Properties.PolicyDecision
import AgentPay.Properties.StateMachine

/-!
# Spending caps across concurrent requests

The caps of a policy bound the settled spend of a user over every day and the number of payments
allowed to a user and an agent over every hour. The gateway reads both quantities before the policy
decides and uses them up later, without a lock on the user. In a run in which no reading is out of
date when it is used, the caps hold in every state (`caps_hold`). Two requests that read before
either is recorded pass a cap together (`caps_exceeded`).
-/

set_option autoImplicit false

namespace AgentPay.Properties

open AgentPay.Library AgentPay.Library.Machine AgentPay.Library.Rego AgentPay.Policies
  AgentPay.Gateway

/-! ## The caps -/

/-- The settled spend of a user over the day that starts at an instant. -/
def spentInDay (w : World) (userId : String) (start : Time) : ℤ :=
  sumWhere Transaction.amount (fun r => decide (r.userId = userId ∧ start ≤ r.createdAt ∧
    r.createdAt ≤ start + seconds daySeconds ∧ r.state ∈ World.settledStates)) w.transactions

/-- The number of payments allowed to a user and an agent since an instant. -/
def allowedSince (w : World) (userId agentId : String) (since : Time) : ℕ :=
  w.transactions.countP fun r => decide (r.userId = userId ∧ r.agentId = agentId ∧
    r.decision = .allow ∧ since ≤ r.createdAt)

/-- The number of payments allowed to a user and an agent over the hour that starts at an
instant. -/
def allowedInHour (w : World) (userId agentId : String) (start : Time) : ℕ :=
  w.transactions.countP fun r => decide (r.userId = userId ∧ r.agentId = agentId ∧
    r.decision = .allow ∧ start ≤ r.createdAt ∧ r.createdAt ≤ start + seconds velocityWindow)

/-- The caps of a policy hold for a user, in every window. -/
structure WithinCaps (p : SpendingPolicy) (userId : String) (w : World) : Prop where
  daily : ∀ start, spentInDay w userId start ≤ p.dailyLimit
  hourly : ∀ agentId start, (allowedInHour w userId agentId start : ℤ) ≤ p.maxTransactionsPerHour

/-! ## Readings that are not out of date -/

/-- A payment of the user is allowed only when every one allowed since the start of the window was
counted, and authorized only when the spend that was read is not exceeded by now. -/
def readingFresh (userId : String) (c : Config) (ev : Event) : Bool :=
  match ev.op with
  | .insertTransaction row =>
      decide (row.userId ≠ userId) || decide (row.decision ≠ .allow) ||
        ((sessionOf c ev.tid).bind Session.velocity).any fun v =>
          decide (allowedSince c.world userId row.agentId v.since ≤ v.count)
  | .commitState _ .authorized _ _ =>
      ((sessionOf c ev.tid).bind Session.spent).any fun sp =>
        decide (sp.userId ≠ userId) || decide (c.world.settledSince userId sp.since ≤ sp.amount)
  | _ => true

/-- The user's policies are all the given one. -/
def FixedPolicy (p : SpendingPolicy) (userId : String) (w : World) : Prop :=
  ∀ q ∈ w.policies, q.userId = userId → q = p

/-- The environment does not give the user another policy. -/
def keepsPolicy (p : SpendingPolicy) (userId : String) : Env → Bool
  | .upsertPolicy q => decide (q.userId = userId → q = p)
  | _ => true

/-- Runs under a fixed policy of the user, from a database within its caps, in which no commit and
no reading is out of date. -/
def freshReadings (p : SpendingPolicy) (userId : String) : Discipline where
  initial w := FixedPolicy p userId w ∧ WithinCaps p userId w ∧ w.PrimaryKey ∧
    ∀ r ∈ w.transactions, 0 ≤ r.amount
  act _ env := keepsPolicy p userId env = true
  run c ev := (commitsFresh c ev && readingFresh userId c ev) = true

theorem freshReadings_checked (p : SpendingPolicy) (userId : String) :
    (freshReadings p userId).Checked {
      act := fun _ env => keepsPolicy p userId env
      run := fun c ev => commitsFresh c ev && readingFresh userId c ev } :=
  ⟨fun _ _ => trivial, fun _ _ h => h, fun _ _ h => h⟩

/-! ## What an allowed row was judged on -/

/-- The amount of the wire, in the database and in the policy input. -/
theorem hundredths_amount (m : Money) :
    hundredths m.amount = toMinorUnits m.amount ∧ 0 < toMinorUnits m.amount := by
  obtain ⟨n, hn⟩ := m.twoPlaces
  have hminor : toMinorUnits m.amount = n := by
    have h := toMinorUnits_of_convertible m.convertible
    rw [hn] at h
    exact_mod_cast h
  have hhundred : hundredths m.amount = n := by
    refine Decimal.toInt_of_toRat _ n ?_
    rw [Decimal.toRat_mulExact, Decimal.toRat_ofNat, ← hn]
    norm_num
  refine ⟨hhundred.trans hminor.symm, ?_⟩
  rw [hminor]
  have hpos : (0 : ℚ) < n := by
    rw [← hn]
    exact mul_pos m.positive (by norm_num)
  exact_mod_cast hpos

/-- A spend and an amount within a limit in the policy's comparison are within it. -/
theorem add_le_of_minor {spent amount limit : ℤ} (hspent : 0 ≤ spent) (hamount : 0 < amount)
    (hfits : FitsNumeric limit)
    (h : toMinorUnits (spentDecimal spent) + amount ≤ toMinorUnits (.ofHundredths limit)) :
    spent + amount ≤ limit := by
  have hlimit : limit.natAbs < 10 ^ contextPrecision :=
    lt_of_lt_of_le hfits (Nat.pow_le_pow_right (by norm_num) (by decide))
  rw [toMinorUnits_ofHundredths hlimit] at h
  unfold spentDecimal at h
  by_cases hzero : spent = 0
  · rw [if_pos hzero, show toMinorUnits (.ofNat 0) = 0 by decide] at h
    omega
  · rw [if_neg hzero] at h
    by_cases hsmall : spent.natAbs < 10 ^ contextPrecision
    · rwa [toMinorUnits_ofHundredths hsmall] at h
    · -- a spend beyond the context converts to more than any limit
      exfalso
      have hlarge := toMinorUnits_ofHundredths_large (not_lt.1 hsmall)
      rw [Int.natAbs_of_nonneg hspent] at hlarge
      have hlt : limit < 10 ^ contextPrecision := by
        have : (limit.natAbs : ℤ) < 10 ^ contextPrecision := by exact_mod_cast hlimit
        omega
      omega

/-- What the policy compared when it allowed the row of a session. -/
structure JudgedOn (s : Session) (row : Transaction) : Prop where
  amount : 0 < row.amount
  readings : ∃ policy spent velocity, s.policy = some (some policy) ∧
    policy.userId = row.userId ∧ s.spent = some spent ∧ spent.userId = row.userId ∧
    s.velocity = some velocity ∧
    velocity.since = velocity.readAt - seconds velocityWindow ∧
    (0 ≤ spent.amount → spent.amount + row.amount ≤ policy.dailyLimit) ∧
    (velocity.count : ℤ) < policy.maxTransactionsPerHour

/-- The policy fields of a context come from the policy that was read. -/
theorem contextOf_policy {txn : CanonicalTransaction} {policy : Option SpendingPolicy}
    {merchant : Option Merchant} {agent : Option AgentRegistration} {spent : ℤ} {count : ℕ}
    (h : (contextOf txn policy merchant agent spent count).policyFound = true) :
    ∃ p, policy = some p ∧ p.userId = txn.userId ∧
      (contextOf txn policy merchant agent spent count).dailyLimit = .ofHundredths p.dailyLimit ∧
      (contextOf txn policy merchant agent spent count).maxTransactionsPerHour =
        p.maxTransactionsPerHour := by
  cases policy with
  | none => cases merchant <;> cases agent <;> cases h
  | some p =>
      by_cases huser : p.userId = txn.userId
      · refine ⟨p, rfl, huser, ?_, ?_⟩ <;> cases merchant <;> cases agent <;>
          simp [contextOf, PolicyContext.withPolicy, PolicyContext.withMerchant,
            PolicyContext.withAgent, huser]
      · cases merchant <;> cases agent <;>
          simp [contextOf, PolicyContext.withPolicy, PolicyContext.withMerchant,
            PolicyContext.withAgent, huser] at h

/-- The row of a transaction carries the amount the policy compared. -/
theorem amount_newRow {s : Session} (hs : Sound s) {txn : CanonicalTransaction}
    (htxn : s.txn = some txn) (verdict : PDPResult) (risk : RiskAssessment) (t : Time) :
    (newRow txn verdict risk t).amount = toMinorUnits txn.amount ∧
      0 < (newRow txn verdict risk t).amount := by
  obtain ⟨intent, hc⟩ := hs.canonical txn htxn
  obtain ⟨hamount, hpos⟩ := hundredths_amount intent.amount
  rw [← hc.amount] at hamount hpos
  change hundredths txn.amount = toMinorUnits txn.amount ∧ 0 < hundredths txn.amount
  rw [hamount]
  exact ⟨rfl, hpos⟩

theorem judgedOn_of_verdict {s : Session} (hs : Sound s) {txn : CanonicalTransaction}
    {verdict : PDPResult} (htxn : s.txn = some txn) (hverdict : s.verdict = some verdict)
    (hallow : verdict.decision = .allow) (risk : RiskAssessment) (t : Time) :
    JudgedOn s (newRow txn verdict risk t) := by
  obtain ⟨e, hm, hdeny⟩ := hs.no_denial hverdict hallow
  obtain rfl : e.txn = txn := Option.some.inj (hm.txn.symm.trans htxn)
  obtain ⟨hrow, hpos⟩ := amount_newRow hs htxn verdict risk t
  obtain ⟨policy, merchant, agent, spent, velocity, hpolicy, hspent, huser, hvelocity, -, hsince,
    hctx⟩ := hm.context
  have hspending : Spending.deny (buildInput e) = [] := by
    unfold denyReasons at hdeny
    rw [union_eq_nil] at hdeny
    apply hdeny
    simp
  obtain ⟨hfound, -, -, -, hdaily, hhourly⟩ := (spending_deny_minor e).1 hspending
  rw [hctx] at hfound hdaily hhourly
  obtain ⟨p, rfl, hp, hlimit, hmax⟩ := contextOf_policy hfound
  refine ⟨hpos, p, spent, velocity, hpolicy, hp, hspent, huser, hvelocity, hsince, ?_, ?_⟩
  · intro hnonneg
    rw [hlimit, ← hrow] at hdaily
    exact add_le_of_minor hnonneg hpos p.dailyLimit_fits hdaily
  · rw [hmax] at hhourly
    exact hhourly

/-! ## When the readings were made -/

/-- A window counted back from a reading covers every window with a later end. -/
theorem window_start_le {readAt createdAt start length : ℕ} (h : readAt ≤ createdAt)
    (h' : createdAt ≤ start + length) : readAt - length ≤ start := by
  omega

/-- The readings of a session are not later than its last look at the clock, and the spend was read
before the row was created. -/
structure ReadInTime (s : Session) : Prop where
  spent : ∀ sp, s.spent = some sp →
    sp.since = sp.readAt - seconds daySeconds ∧ sp.readAt ≤ s.lastNow
  velocity : ∀ v, s.velocity = some v → v.readAt ≤ s.lastNow
  row : ∀ row sp, s.row = some row → s.spent = some sp → sp.readAt ≤ row.createdAt

theorem ReadInTime.next {s : Session} {op : Op} {answer : Except Exn op.Val} {w w' : World}
    {o : Outcome} (h : ReadInTime s) (hs : Sound s) (hclock : s.lastNow ≤ w.clock)
    (hguard : s.guard op) (hp : w.perform op o = some (w', answer)) :
    ReadInTime (s.next op answer) := by
  cases op with
  | now =>
      rw [World.perform_now hp]
      refine ⟨?_, ?_, h.row⟩
      · intro sp hsp
        exact ⟨(h.spent sp hsp).1, (h.spent sp hsp).2.trans hclock⟩
      · intro v hv
        exact (h.velocity v hv).trans hclock
  | sumSettled userId since =>
      cases answer with
      | error e => exact h
      | ok n =>
          obtain ⟨hopa, hsince⟩ := hguard
          refine ⟨?_, h.velocity, ?_⟩
          · intro sp hsp
            cases hsp
            exact ⟨hsince, le_refl _⟩
          · intro row sp hrow
            cases (hs.row_eq_none hopa).symm.trans hrow
  | zcount key since =>
      cases answer with
      | error e => exact h
      | ok n =>
          refine ⟨h.spent, ?_, h.row⟩
          intro v hv
          cases hv
          exact le_refl _
  | insertTransaction row =>
      cases answer with
      | error e => exact h
      | ok u =>
          refine ⟨h.spent, h.velocity, ?_⟩
          intro row' sp hrow hsp
          cases hrow
          obtain ⟨-, txn, verdict, risk, -, -, rfl⟩ := hguard
          exact (h.spent sp hsp).2
  | commitState id target reference detail =>
      cases target <;> cases answer <;> exact ⟨h.spent, h.velocity, h.row⟩
  | _ => cases answer <;> exact ⟨h.spent, h.velocity, h.row⟩

section Runs

variable {R : Runtime} {D : Discipline} {c : Config} {tid : ℕ} {s : Session} {p : SpendingPolicy}
  {userId : String}

theorem read_in_time (hc : Reachable (machine R) D c) (hs : sessionOf c tid = some s) :
    ReadInTime s := by
  refine hc.thread_invariant custody Job.session (job_follows R) (I := fun _ s => ReadInTime s)
    ?_ ?_ ?_ ?_ hs
  · intro c job _
    rw [Job.session_eq]
    refine ⟨?_, ?_, ?_⟩
    · intro sp h
      cases h
    · intro v h
      cases h
    · intro row sp h
      cases h
  · intro c env s _ _ h
    exact h
  · intro c tid s op o w answer hc hp h
    exact h.next (session_sound hc hp.session) (lastNow_le hc hp.session) hp.guard hp.perform
  · intro c tid s op o w answer tid' s' _ _ _ _ h
    exact h

/-- The policies are not changed by an operation. -/
theorem perform_policies {w w' : World} {op : Op} {o : Outcome} {answer : Except Exn op.Val}
    (h : w.perform op o = some (w', answer)) : w'.policies = w.policies := by
  rcases World.perform_world h with rfl | rfl
  · cases op <;> first
      | rfl
      | (simp only [World.apply]
         split <;> rfl)
  · rfl

theorem policies_fixed (hc : Reachable (machine R) (freshReadings p userId) c) :
    FixedPolicy p userId c.world := by
  refine Reachable.invariant custody Job.session (job_follows R)
    (I := fun c => FixedPolicy p userId c.world) ?_ ?_ ?_ ?_ hc
  · intro w hw
    exact hw.1
  · intro c job _ ih _ _
    exact ih
  · intro c env _ ih hact
    cases env with
    | upsertPolicy q =>
        intro q' hq' huser
        rcases List.mem_cons.1 hq' with rfl | hq'
        · exact of_decide_eq_true hact huser
        · exact ih q' (List.mem_filter.1 hq').1 huser
    | _ => exact ih
  · intro c tid s job op next o w answer _ ih _ hp _
    change FixedPolicy p userId w
    unfold FixedPolicy
    rw [perform_policies hp.perform]
    exact ih

/-- A policy that a job read for the user is the given one. -/
theorem policy_read (hc : Reachable (machine R) (freshReadings p userId) c)
    (hs : sessionOf c tid = some s) {q : SpendingPolicy} (hq : s.policy = some (some q))
    (huser : q.userId = userId) : q = p := by
  refine hc.thread_invariant custody Job.session (job_follows R)
    (I := fun _ s => ∀ q, s.policy = some (some q) → q.userId = userId → q = p)
    ?_ ?_ ?_ ?_ hs q hq huser
  · intro c job _ q hq
    cases job <;> cases hq
  · intro c env s _ _ h
    exact h
  · intro c tid s op o w answer hc hp h q hq huser
    cases op with
    | getPolicy delegationId =>
        cases answer with
        | error e => exact h q hq huser
        | ok found =>
            obtain ⟨-, ha⟩ := World.perform_ok hp.perform
            have hfound : (c.world.policies.find? fun p => p.delegationId == delegationId) =
                found := by
              cases o <;> simp only [World.answer, World.value, Option.some.injEq,
                Except.ok.injEq, reduceCtorEq] at ha
              exact ha
            cases hq
            exact policies_fixed hc q (List.mem_of_find?_eq_some hfound) huser
    | commitState id target reference detail =>
        cases target <;> cases answer <;> exact h q hq huser
    | _ => cases answer <;> exact h q hq huser
  · intro c tid s op o w answer tid' s' _ _ _ _ h
    exact h

end Runs

/-! ## The caps over a run -/

/-- What was settled at the time of insertion is counted alike later. -/
theorem countP_asInserted {P : Transaction → Bool} (hP : ∀ r : Transaction, P r.asInserted = P r)
    {rows rows' : List Transaction}
    (h : rows'.map Transaction.asInserted = rows.map Transaction.asInserted) :
    rows'.countP P = rows.countP P := by
  have hcount : ∀ l : List Transaction, (l.map Transaction.asInserted).countP P = l.countP P := by
    intro l
    rw [List.countP_map]
    exact congrArg (List.countP · l) (funext hP)
  rw [← hcount rows', h, hcount rows]

/-- Only the transition to `AUTHORIZED` brings a payment into the settled states. -/
theorem settled_of_transition {current target : PaymentState}
    (h : target ∈ validTransitions current) (hne : target ≠ .authorized)
    (hsettled : target ∈ World.settledStates) : current ∈ World.settledStates := by
  cases current <;> cases target <;> first
    | exact absurd rfl hne
    | exact absurd h (by decide)
    | exact absurd hsettled (by decide)
    | decide

/-- The caps hold, keys are unique and no amount is negative. -/
structure Capped (p : SpendingPolicy) (userId : String) (w : World) : Prop where
  caps : WithinCaps p userId w
  key : w.PrimaryKey
  nonneg : ∀ r ∈ w.transactions, 0 ≤ r.amount

section Steps

variable {p : SpendingPolicy} {userId : String} {w w' : World}

/-- A change of the rows that keeps what was inserted keeps the hourly cap. -/
theorem WithinCaps.hourly_of_asInserted (h : WithinCaps p userId w)
    (heq : w'.transactions.map Transaction.asInserted =
      w.transactions.map Transaction.asInserted) (agentId : String) (start : Time) :
    (allowedInHour w' userId agentId start : ℤ) ≤ p.maxTransactionsPerHour := by
  have hsame : allowedInHour w' userId agentId start = allowedInHour w userId agentId start :=
    countP_asInserted (fun r => rfl) heq
  rw [hsame]
  exact h.hourly agentId start

theorem nonneg_of_asInserted (h : ∀ r ∈ w.transactions, 0 ≤ r.amount)
    (heq : w'.transactions.map Transaction.asInserted =
      w.transactions.map Transaction.asInserted) : ∀ r ∈ w'.transactions, 0 ≤ r.amount := by
  intro r hr
  have hmem : r.asInserted ∈ w.transactions.map Transaction.asInserted :=
    heq ▸ List.mem_map_of_mem hr
  obtain ⟨r', hr', hsame⟩ := List.mem_map.1 hmem
  rw [← (Transaction.sameInsertion hsame).amount]
  exact h r' hr'

/-- A change of one row that brings no payment into the settled states of a day keeps the day. -/
theorem spentInDay_updateRow_le {id : ℕ} {f : Transaction → Transaction}
    (hnonneg : ∀ r ∈ w.transactions, 0 ≤ r.amount)
    (hf : ∀ r : Transaction, (f r).asInserted = r.asInserted) (start : Time)
    (hstate : ∀ r ∈ w.transactions, r.paymentAuthorizationId = id → r.userId = userId →
      start ≤ r.createdAt → r.createdAt ≤ start + seconds daySeconds →
      (f r).state ∈ World.settledStates → r.state ∈ World.settledStates) :
    spentInDay (w.updateRow id f) userId start ≤ spentInDay w userId start := by
  unfold spentInDay World.updateRow
  rw [sumWhere_map]
  · apply sumWhere_mono hnonneg
    intro r hr hcounts
    by_cases hid : r.paymentAuthorizationId = id
    · simp only [if_pos hid, decide_eq_true_eq] at hcounts ⊢
      have hsame := Transaction.sameInsertion (hf r)
      rw [hsame.userId, hsame.createdAt] at hcounts
      obtain ⟨hu, hlo, hhi, hs⟩ := hcounts
      exact ⟨hu, hlo, hhi, hstate r hr hid hu hlo hhi hs⟩
    · simpa only [if_neg hid] using hcounts
  · intro r
    split
    · exact (Transaction.sameInsertion (hf r)).amount
    · rfl

/-- An authorization adds the amount of its row to the spend of the day, at most to what was settled
since the start of a window that reaches further back. -/
theorem spentInDay_authorize_le {row : Transaction} {f : Transaction → Transaction}
    (hkey : w.PrimaryKey) (hnonneg : ∀ r ∈ w.transactions, 0 ≤ r.amount)
    (hf : ∀ r : Transaction, (f r).asInserted = r.asInserted) (hrow : row ∈ w.transactions)
    {start since : Time} (hsince : since ≤ start) :
    spentInDay (w.updateRow row.paymentAuthorizationId f) userId start ≤
      w.settledSince userId since + row.amount := by
  have hsettled : w.settledSince userId since = sumWhere Transaction.amount
      (fun r => r.userId == userId && decide (since ≤ r.createdAt) &&
        decide (r.state ∈ World.settledStates)) w.transactions := rfl
  have hone := sumWhere_key (f := Transaction.amount) Transaction.paymentAuthorizationId hkey hrow
  rw [hsettled, ← hone]
  unfold spentInDay World.updateRow
  rw [sumWhere_map]
  · apply sumWhere_or_le hnonneg
    intro r hr hcounts
    by_cases hid : r.paymentAuthorizationId = row.paymentAuthorizationId
    · exact .inr (decide_eq_true hid)
    · left
      simp only [if_neg hid, decide_eq_true_eq] at hcounts
      obtain ⟨hu, hlo, -, hs⟩ := hcounts
      simp only [hu, beq_self_eq_true, Bool.true_and, Bool.and_eq_true, decide_eq_true_eq]
      exact ⟨hsince.trans hlo, hs⟩
  · intro r
    split
    · exact (Transaction.sameInsertion (hf r)).amount
    · rfl

end Steps

section Cap

variable {R : Runtime} {c : Config} {tid : ℕ} {s : Session} {p : SpendingPolicy} {userId : String}
  {o : Outcome} {w : World}

/-- An insertion keeps the caps: a new row is not settled, and an allowed one was counted against
every payment allowed since the start of the window. -/
theorem capped_insert (hc : Reachable (machine R) (freshReadings p userId) c)
    (h : Capped p userId c.world) {row : Transaction} {answer : Except Exn Unit}
    (hp : Performing R (freshReadings p userId) c tid s (.insertTransaction row) o w answer)
    (hrefuses : c.world.refuses row = false)
    (hrows : w.transactions = row :: c.world.transactions) : Capped p userId w := by
  have hs := session_sound hc hp.session
  obtain ⟨-, txn, verdict, risk, htxn, hverdict, hrow⟩ := hp.guard
  have hpos : 0 < row.amount := by
    rw [hrow]
    exact (amount_newRow hs htxn verdict risk s.lastNow).2
  have hcreated : row.state = .created := by rw [hrow]; rfl
  refine ⟨⟨?_, ?_⟩, h.key.perform hp.perform, ?_⟩
  · intro start
    unfold spentInDay
    rw [hrows, sumWhere_cons, if_neg, zero_add]
    · exact h.caps.daily start
    · rw [hcreated]
      simp [World.settledStates]
  · intro agentId start
    unfold allowedInHour
    rw [hrows, List.countP_cons]
    by_cases hcounts : row.userId = userId ∧ row.agentId = agentId ∧ row.decision = .allow ∧
        start ≤ row.createdAt ∧ row.createdAt ≤ start + seconds velocityWindow
    · obtain ⟨huser, hagent, hallow, hlo, hhi⟩ := hcounts
      have hdecision : verdict.decision = .allow := by rw [hrow] at hallow; exact hallow
      obtain ⟨policy, spent, velocity, hpolicy, hpuser, -, -, hvelocity, hsince, -, hlt⟩ :=
        (hrow ▸ judgedOn_of_verdict hs htxn hverdict hdecision risk s.lastNow :
          JudgedOn s row).readings
      obtain rfl : policy = p := policy_read hc hp.session hpolicy (hpuser.trans huser)
      have hread := (read_in_time hc hp.session).velocity velocity hvelocity
      have hnow : row.createdAt = s.lastNow := by rw [hrow]; rfl
      -- the counted window starts no later than this one, and every payment in it was counted
      have hfresh : allowedSince c.world userId row.agentId velocity.since ≤ velocity.count := by
        have hcheck := (Bool.and_eq_true_iff.1 hp.discipline).2
        simpa [readingFresh, sessionOf, hp.session, hvelocity, huser, hallow] using hcheck
      have hle : allowedInHour c.world userId agentId start ≤ velocity.count := by
        refine le_trans (List.countP_mono_left ?_) hfresh
        intro r _ hr
        obtain ⟨hu, ha, hd, hl, -⟩ := of_decide_eq_true hr
        refine decide_eq_true ⟨hu, ha.trans hagent.symm, hd, le_trans ?_ hl⟩
        rw [hsince]
        exact window_start_le (hread.trans_eq hnow.symm) hhi
      rw [if_pos (decide_eq_true ⟨huser, hagent, hallow, hlo, hhi⟩)]
      unfold allowedInHour at hle
      push_cast
      omega
    · rw [if_neg (by simpa using hcounts), Nat.add_zero]
      exact h.caps.hourly agentId start
  · intro r hr
    rw [hrows] at hr
    rcases List.mem_cons.1 hr with rfl | hr
    · exact hpos.le
    · exact h.nonneg r hr

/-- A commit keeps the caps: only an authorization adds to the settled spend, and it was compared
with a spend that is not exceeded. -/
theorem capped_commit (hc : Reachable (machine R) (freshReadings p userId) c)
    (h : Capped p userId c.world) {id : ℕ} {target : PaymentState} {reference : Option Json}
    {detail : Option String} {answer : Except Exn Unit}
    (hp : Performing R (freshReadings p userId) c tid s
      (.commitState id target reference detail) o w answer)
    (hrows : w.transactions =
      (c.world.updateRow id (Transaction.withState target reference detail)).transactions) :
    Capped p userId w := by
  have hf : ∀ r : Transaction, (r.withState target reference detail).asInserted = r.asInserted :=
    fun r => r.asInserted_withState target reference detail
  have hins : w.transactions.map Transaction.asInserted =
      c.world.transactions.map Transaction.asInserted := by
    rw [hrows, World.asInserted_updateRow c.world id hf]
  refine ⟨⟨?_, h.caps.hourly_of_asInserted hins⟩, h.key.perform hp.perform,
    nonneg_of_asInserted h.nonneg hins⟩
  intro start
  have hspent : spentInDay w userId start = spentInDay
      (c.world.updateRow id (Transaction.withState target reference detail)) userId start := by
    unfold spentInDay
    rw [hrows]
  rw [hspent]
  obtain ⟨⟨current, hread, ht⟩, hwarranted⟩ := hp.guard
  have hcheck := Bool.and_eq_true_iff.1 hp.discipline
  -- the row is in the state that was read, so the transition is the one that was checked
  have hcurrent : ∀ r ∈ c.world.transactions, r.paymentAuthorizationId = id →
      r.state = current := by
    intro r hr hid
    have hfresh : (c.world.row? id).map Transaction.state = some current := by
      simpa [commitsFresh, sessionOf, hp.session, hread] using hcheck.1
    rw [← hid, h.key.row? hr] at hfresh
    exact Option.some.inj hfresh
  by_cases hauthorized : target = .authorized
  · subst hauthorized
    obtain ⟨⟨hissued, row, hrow, hid, hallow⟩, -⟩ := hwarranted
    have hs := session_sound hc hp.session
    obtain ⟨txn, verdict, risk, t, htxn, hverdict, hnew⟩ := hs.recorded row hrow
    have hdecision : verdict.decision = .allow := by rw [hnew] at hallow; exact hallow
    obtain ⟨policy, spent, -, hpolicy, hpuser, hspent, huser, -, -, hlimit, -⟩ :=
      (hnew ▸ judgedOn_of_verdict hs htxn hverdict hdecision risk t : JudgedOn s row).readings
    obtain ⟨r, hr, hsame⟩ := List.mem_map.1 (row_recorded hc hp.session hrow)
    have hrow' : row.asInserted = row := by rw [hnew, asInserted_newRow]
    have hr' := Transaction.sameInsertion (hsame.trans hrow'.symm)
    by_cases hcounts : row.userId = userId ∧ row.createdAt ≤ start + seconds daySeconds
    · obtain ⟨huserId, hhi⟩ := hcounts
      obtain rfl : policy = p := policy_read hc hp.session hpolicy (hpuser.trans huserId)
      have htime := read_in_time hc hp.session
      have hsince := htime.spent spent hspent
      have hbefore := htime.row row spent hrow hspent
      have hfresh : c.world.settledSince userId spent.since ≤ spent.amount := by
        simpa [readingFresh, sessionOf, hp.session, hspent, huser.trans huserId] using hcheck.2
      have hnonneg : 0 ≤ c.world.settledSince userId spent.since := sumWhere_nonneg h.nonneg
      have hcovers : spent.since ≤ start := hsince.1.trans_le (window_start_le hbefore hhi)
      have hle := @spentInDay_authorize_le userId _ r _ h.key h.nonneg hf hr _ _ hcovers
      rw [hr'.id, hid, hr'.amount] at hle
      have := hlimit (hnonneg.trans hfresh)
      omega
    · -- the row is outside the window or of another user, so the day does not change
      refine (spentInDay_updateRow_le h.nonneg hf start ?_).trans (h.caps.daily start)
      intro r₀ hr₀ hid₀ huser₀ _ hhi₀ _
      exfalso
      have hrow₀ := h.key.row? hr₀
      rw [hid₀, ← hid, ← hr'.id, h.key.row? hr] at hrow₀
      cases hrow₀
      exact hcounts ⟨hr'.userId.symm.trans huser₀, hr'.createdAt ▸ hhi₀⟩
  · refine (spentInDay_updateRow_le h.nonneg hf start ?_).trans (h.caps.daily start)
    intro r hr hid _ _ _ hsettled
    rw [hcurrent r hr hid]
    exact settled_of_transition ht hauthorized hsettled

/-- A change that leaves states and insertions alone keeps the caps. -/
theorem Capped.of_rows (h : Capped p userId c.world) {id : ℕ} {f : Transaction → Transaction}
    (hf : ∀ r : Transaction, (f r).state = r.state ∧ (f r).asInserted = r.asInserted)
    (hkey : w.PrimaryKey) (hrows : w.transactions = (c.world.updateRow id f).transactions) :
    Capped p userId w := by
  have hins : w.transactions.map Transaction.asInserted =
      c.world.transactions.map Transaction.asInserted := by
    rw [hrows, World.asInserted_updateRow c.world id fun r => (hf r).2]
  refine ⟨⟨?_, h.caps.hourly_of_asInserted hins⟩, hkey, nonneg_of_asInserted h.nonneg hins⟩
  intro start
  have hspent : spentInDay w userId start = spentInDay (c.world.updateRow id f) userId start := by
    unfold spentInDay
    rw [hrows]
  rw [hspent]
  refine (spentInDay_updateRow_le h.nonneg (fun r => (hf r).2) start ?_).trans (h.caps.daily start)
  intro r _ _ _ _ _ hsettled
  rwa [(hf r).1] at hsettled

end Cap

/-- Under a fixed policy, in a run in which no commit and no reading is out of date, the caps hold in
every state. -/
theorem caps_hold (R : Runtime) (p : SpendingPolicy) (userId : String) (c : Config)
    (hc : Reachable (machine R) (freshReadings p userId) c) : WithinCaps p userId c.world := by
  suffices h : Capped p userId c.world from h.caps
  refine Reachable.invariant custody Job.session (job_follows R)
    (I := fun c => Capped p userId c.world) ?_ ?_ ?_ ?_ hc
  · intro w hw
    exact ⟨hw.2.1, hw.2.2.1, hw.2.2.2⟩
  · intro c job _ ih _ _
    exact ih
  · intro c env _ ih _
    have hrows := c.world.environment_transactions env
    refine ⟨⟨fun start => ?_, fun agentId start => ?_⟩, ?_, ?_⟩
    · change spentInDay (c.world.environment env) userId start ≤ _
      rw [spentInDay, hrows]
      exact ih.caps.daily start
    · change (allowedInHour (c.world.environment env) userId agentId start : ℤ) ≤ _
      rw [allowedInHour, hrows]
      exact ih.caps.hourly agentId start
    · change (c.world.environment env).PrimaryKey
      rw [World.PrimaryKey, hrows]
      exact ih.key
    · change ∀ r ∈ (c.world.environment env).transactions, 0 ≤ r.amount
      rw [hrows]
      exact ih.nonneg
  · intro c tid s job op next o w answer hc ih _ hp _
    change Capped p userId w
    have hkey := ih.key.perform hp.perform
    rcases World.perform_transactions hp.perform with heq | ⟨row, rfl, hrefuses, heq⟩ |
      ⟨id, target, reference, detail, rfl, heq⟩ | ⟨id, f, hf, heq⟩
    · refine ih.of_rows (fun _ => ⟨rfl, rfl⟩) hkey (?_ : _ = (c.world.updateRow 0 id).transactions)
      rw [heq, World.updateRow]
      simp
    · exact capped_insert hc ih hp hrefuses heq
    · exact capped_commit hc ih hp heq
    · exact ih.of_rows hf hkey heq

/-- The instant at which the closed schedules start. -/
def scheduleStart : Time := seconds 1000000

/-- One request that spends the whole limit, in a run of fresh readings. -/
theorem caps_hold_spent : ∃ c : Config, Reachable (machine Scenario.runtime)
      (freshReadings (Scenario.policy "u" 200 1) "u") c ∧
    spentInDay c.world "u" scheduleStart = 100 ∧ WithinCaps (Scenario.policy "u" 200 1) "u" c.world := by
  have hinitial : (freshReadings (Scenario.policy "u" 200 1) "u").initial
      (Scenario.world (Scenario.policy "u" 200 1)) := by
    refine ⟨?_, ⟨?_, ?_⟩, List.nodup_nil, ?_⟩
    · intro q hq _
      exact List.mem_singleton.1 hq
    · intro start
      change (0 : ℤ) ≤ 100
      decide
    · intro agentId start
      change ((0 : ℕ) : ℤ) ≤ 1
      decide
    · intro r hr
      cases hr
  have hrun : executes Scenario.runtime {
        act := fun _ env => keepsPolicy (Scenario.policy "u" 200 1) "u" env
        run := fun c ev => commitsFresh c ev && readingFresh "u" c ev }
      (Scenario.world (Scenario.policy "u" 200 1))
      ([Scenario.request Scenario.firstOrder false] ++
        steps 0 (Scenario.toInsertion ++ oks 10))
      (fun c => spentInDay c.world "u" scheduleStart = 100) = true := by decide +kernel
  obtain ⟨c, hc, hspent⟩ := exists_reachable_checked (freshReadings_checked _ _) hinitial hrun
  exact ⟨c, hc, hspent, caps_hold _ _ _ c hc⟩

/-- Two orders of different carts, each judged before the other is recorded. -/
def judgedTogether : List (Label Job Env Outcome) :=
  [Scenario.request Scenario.firstOrder false,
    Scenario.request Scenario.secondOrder false] ++
    steps 0 (oks 10 ++ [Scenario.clean] ++ oks 8) ++
    steps 1 (oks 10 ++ [Scenario.clean] ++ oks 8) ++ steps 0 (oks 13) ++ steps 1 (oks 13)

/-- Both orders are allowed and authorized under a limit that admits one of them. -/
theorem caps_exceeded : ∃ c : Config, Reachable (machine Scenario.runtime) {} c ∧
    c.world.policies = [Scenario.policy "u" 200 1] ∧
    spentInDay c.world "u" scheduleStart = 200 ∧
    allowedInHour c.world "u" "a" scheduleStart = 2 ∧
    ¬ WithinCaps (Scenario.policy "u" 200 1) "u" c.world := by
  have hrun : executes Scenario.runtime {} (Scenario.world (Scenario.policy "u" 200 1))
      judgedTogether (fun c => c.world.policies = [Scenario.policy "u" 200 1] ∧
        spentInDay c.world "u" scheduleStart = 200 ∧
        allowedInHour c.world "u" "a" scheduleStart = 2) = true := by decide +kernel
  obtain ⟨c, hc, hpolicies, hspent, hallowed⟩ := exists_reachable hrun
  refine ⟨c, hc, hpolicies, hspent, hallowed, ?_⟩
  intro hcaps
  have hdaily := hcaps.daily scheduleStart
  rw [hspent] at hdaily
  exact absurd hdaily (by decide)

end AgentPay.Properties
