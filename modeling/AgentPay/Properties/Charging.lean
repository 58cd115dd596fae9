import AgentPay.Properties.Scenario

/-!
# At most one charge

For every user and idempotency key the gateway sends at most one charge over a whole run. The locks
and the stored outcome play no part in the proof: a charge is sent once by its job and under a row
the job inserted, and the database never takes two rows that are not blocked under one key.
-/

set_option autoImplicit false

namespace AgentPay.Properties

open AgentPay.Library AgentPay.Library.Machine AgentPay.Gateway

/-- The event sends a charge for a user under an idempotency key. -/
def sendsCharge (userId idempotencyKey : String) (ev : Event) : Bool :=
  match ev.op with
  | .sendCharge token body => decide (token.sub = userId ∧ body.idempotencyKey = idempotencyKey)
  | _ => false

/-- The number of charges sent for a user under an idempotency key. -/
def chargesSent (userId idempotencyKey : String) (c : Config) : ℕ :=
  c.log.countP (sendsCharge userId idempotencyKey)

/-- A job that sent a charge for a user under a key holds an allowed row of that user and key. -/
def ChargedUnder (userId idempotencyKey : String) (s : Session) : Prop :=
  s.charged = true ∧ ∃ row, s.row = some row ∧ row.decision = .allow ∧ row.userId = userId ∧
    row.idempotencyKey = idempotencyKey

theorem ChargedUnder.next {userId key : String} {s : Session} (hs : ChargedUnder userId key s)
    {op : Op} (hguard : s.guard op) (answer : Except Exn op.Val) :
    ChargedUnder userId key (s.next op answer) := by
  obtain ⟨hcharged, row, hrow, hrest⟩ := hs
  refine ⟨?_, row, ?_, hrest⟩
  · cases op
    case commitState id target reference detail => cases target <;> cases answer <;> exact hcharged
    all_goals cases answer <;> first | exact hcharged | rfl
  · by_cases hop : ∃ new, op = .insertTransaction new
    · obtain ⟨new, rfl⟩ := hop
      cases hguard.1.symm.trans hrow
    · rw [row_next_of_ne answer s fun new h => hop ⟨new, h⟩, hrow]

variable {R : Runtime} {c : Config}

/-- Every charge in the log was sent by a job that says so. -/
theorem charged_of_mem_log (hc : Reachable (machine R) {} c) {userId key : String} {ev : Event}
    (hev : ev ∈ c.log) (hsends : sendsCharge userId key ev = true) :
    ∃ s, sessionOf c ev.tid = some s ∧ ChargedUnder userId key s := by
  refine Reachable.invariant custody Job.session (job_follows R)
    (I := fun c => ∀ ev ∈ c.log, sendsCharge userId key ev = true →
      ∃ s, sessionOf c ev.tid = some s ∧ ChargedUnder userId key s) ?_ ?_ ?_ ?_ hc ev hev hsends
  · exact fun _ _ ev hev => absurd hev List.not_mem_nil
  · intro c job hc ih _ heq ev hev hsends
    obtain ⟨s, hs, hcharged⟩ := ih ev hev hsends
    refine ⟨s, ?_, hcharged⟩
    rw [sessionOf, heq, Function.update_of_ne (hc.proper ev hev).ne]
    exact hs
  · exact fun c env _ ih _ => ih
  · intro c tid s job op next o w answer hc ih _ hp heq ev hev hsends
    rw [sessionOf, heq]
    rcases List.mem_cons.1 hev with rfl | hev
    · refine ⟨_, Function.update_self .., ?_⟩
      cases op with
      | sendCharge token body =>
          obtain ⟨hsub, hkey⟩ := of_decide_eq_true hsends
          obtain ⟨-, -, hissued, row, txn, hrow, -, -, hsub', -, hkey', -⟩ := hp.guard
          obtain ⟨row', hrow', hallow, -⟩ := (session_sound hc hp.session).credential _ hissued
          cases hrow.symm.trans hrow'
          refine ⟨by cases answer <;> rfl, row, ?_, hallow, hsub'.symm.trans hsub,
            hkey'.symm.trans hkey⟩
          cases answer <;> exact hrow
      | _ => cases hsends
    · obtain ⟨s', hs', hcharged⟩ := ih ev hev hsends
      by_cases htid : ev.tid = tid
      · rw [htid] at hs' ⊢
        cases hp.session.symm.trans hs'
        exact ⟨_, Function.update_self .., hcharged.next hp.guard answer⟩
      · exact ⟨s', by rw [Function.update_of_ne htid]; exact hs', hcharged⟩

/-- No job sends a charge under a user and key after a charge was sent under them. -/
theorem not_sent_before (hc : Reachable (machine R) {} c) {tid : ℕ} {s : Session}
    (hs : sessionOf c tid = some s) {token : AuthorizationClaims} {body : ChargeRequest}
    (hguard : Chargeable s token body) {ev : Event} (hev : ev ∈ c.log) :
    sendsCharge token.sub body.idempotencyKey ev = false := by
  rw [Bool.eq_false_iff]
  intro hsends
  obtain ⟨s', hs', hcharged, row', hrow', hallow', huser', hkey'⟩ :=
    charged_of_mem_log hc hev hsends
  obtain ⟨hfirst, -, hissued, row, txn, hrow, -, -, hsub, -, hkey, -⟩ := hguard
  by_cases htid : ev.tid = tid
  · rw [htid] at hs'
    cases hs.symm.trans hs'
    cases hfirst.symm.trans hcharged
  · obtain ⟨row'', hrow'', hallow, -⟩ := (session_sound hc hs).credential _ hissued
    cases hrow.symm.trans hrow''
    have hclash := rows_never_clash hc htid hs' hs hrow' hrow
    refine absurd hclash (Bool.not_eq_false _ ▸ decide_eq_true ⟨?_, ?_, ?_, ?_⟩)
    · rw [hallow']
      decide
    · rw [hallow]
      decide
    · rw [huser', hsub]
    · rw [hkey', hkey]

/-- At most one charge per user and idempotency key, over any run. -/
theorem at_most_one_charge (R : Runtime) (c : Config) (hc : Reachable (machine R) {} c)
    (userId idempotencyKey : String) : chargesSent userId idempotencyKey c ≤ 1 := by
  refine Reachable.invariant custody Job.session (job_follows R)
    (I := fun c => chargesSent userId idempotencyKey c ≤ 1) ?_ ?_ ?_ ?_ hc
  · exact fun _ _ => Nat.zero_le 1
  · exact fun _ _ _ ih _ _ => ih
  · exact fun _ _ _ ih _ => ih
  · intro c tid s job op next o w answer hc ih _ hp _
    change (_ :: c.log).countP (sendsCharge userId idempotencyKey) ≤ 1
    rw [List.countP_cons]
    by_cases hsends : sendsCharge userId idempotencyKey ⟨tid, op, o, answer⟩ = true
    · cases op with
      | sendCharge token body =>
          obtain ⟨rfl, rfl⟩ := of_decide_eq_true hsends
          have hnone : c.log.countP (sendsCharge token.sub body.idempotencyKey) = 0 := by
            rw [List.countP_eq_zero]
            exact fun ev hev => Bool.eq_false_iff.1 (not_sent_before hc hp.session hp.guard hev)
          rw [hnone, if_pos hsends]
      | _ => cases hsends
    · rw [if_neg hsends]
      exact ih

/-- Two requests under one key, the second when the leases of the first have run out. Both pass the
checks; the second inserts its row too late. -/
def retryAfterLeases : List (Label Job Env Outcome) :=
  let order := Scenario.firstOrder
  [Scenario.request order true, Scenario.request order true] ++ steps 0 (oks 10) ++
    [.act (.tick (seconds 20))] ++ steps 1 (oks 10 ++ [Scenario.clean]) ++
    steps 0 ([Scenario.clean] ++ oks 11) ++ steps 1 (oks 11) ++ steps 0 (oks 29)

theorem one_charge_after_leases : ∃ c : Config, Reachable (machine Scenario.runtime) {} c ∧
    chargesSent "u" "key-0001" c = 1 ∧ chargesSent "u" "key-0001" c ≤ 1 := by
  have hrun : executes Scenario.runtime {} (Scenario.world (Scenario.policy "u" 200 10))
      retryAfterLeases (fun c => chargesSent "u" "key-0001" c = 1) = true := by decide +kernel
  obtain ⟨c, hc, hsent⟩ := exists_reachable hrun
  exact ⟨c, hc, hsent, at_most_one_charge _ c hc "u" "key-0001"⟩

end AgentPay.Properties
