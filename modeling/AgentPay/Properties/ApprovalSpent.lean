import AgentPay.Properties.Slots

/-!
# One payment for an approval

A granted approval is presented with any number of requests; nothing records that it was used. What
stands in the way of a second payment is the slot of the fingerprint, which changes with the bucket
of the clock. In a run that keeps the slots among the requests that present one approval, at most one
of them is allowed by it (`approval_used_once`). A token that lives longer than a bucket is accepted
again in the next one (`approval_used_twice`).
-/

set_option autoImplicit false

namespace AgentPay.Properties

open AgentPay.Library AgentPay.Library.Machine AgentPay.Gateway

/-- The approval request whose token the intent presents. -/
def presentedApproval (intent : PaymentIntent) : Option ℕ :=
  match intent.approvalToken with
  | some (.signed claims) => some claims.approvalRequestId
  | _ => none

/-- The lookups are for intents that present one approval. -/
def sameApproval (x y : SlotLookup) : Prop :=
  ∃ a, presentedApproval x.intent = some a ∧ presentedApproval y.intent = some a

/-- Presenting one approval is symmetric. -/
theorem sameApproval_symm (x y : SlotLookup) (h : sameApproval x y) : sameApproval y x := by
  obtain ⟨a, hx, hy⟩ := h
  exact ⟨a, hy, hx⟩

/-- The response allows the transaction of its own request because of an approval. -/
def allowsByApproval (r : DecisionResponse) : Bool :=
  !r.replayed && decide (r.decision = .allow) && decide ("APPROVAL_SATISFIED" ∈ r.reasonCodes)

/-- The request was answered so. -/
def answeredByApproval (thread : RequestThread) (_ : Session) : Bool :=
  match thread.prog with
  | .ret (.ok (.decision r)) => allowsByApproval r
  | _ => false

/-- No two requests that present one approval are allowed by it. A replay repeats the answer to an
earlier transaction and is none of its own. -/
def ApprovalUsedOnce (c : Config) : Prop :=
  ∀ (t t' : ℕ) (intent intent' : PaymentIntent) (credential credential' : Credential)
    (execute execute' : Bool) (r r' : DecisionResponse) (a : ℕ), t ≠ t' →
    c.threads[t]? = some ⟨.paymentIntent intent credential execute, .ret (.ok (.decision r))⟩ →
    c.threads[t']? = some ⟨.paymentIntent intent' credential' execute', .ret (.ok (.decision r'))⟩ →
    presentedApproval intent = some a → presentedApproval intent' = some a →
    allowsByApproval r = true → allowsByApproval r' = false

variable {R : Runtime} {D : Discipline} {c : Config}

/-- A session keeps the intent of its job. -/
theorem intent_of_job {tid : ℕ} {s : Session} {thread : RequestThread}
    (hs : sessionOf c tid = some s) (ht : c.threads[tid]? = some thread) :
    s.intent = thread.job.session.intent := by
  rw [sessionOf, Config.session, ht, Option.map_some, Option.some.injEq] at hs
  subst hs
  induction c.log with
  | nil => rfl
  | cons ev log ih =>
      rw [Machine.replay]
      split
      · exact (intent_next ev.answer _).trans ih
      · exact ih

/-- A request that was allowed by an approval found the slot of its fingerprint free. -/
theorem foundFree_of_answered (hc : Reachable (machine R) D c) {tid : ℕ} {intent : PaymentIntent}
    {credential : Credential} {execute : Bool} {r : DecisionResponse}
    (ht : c.threads[tid]? = some ⟨.paymentIntent intent credential execute, .ret (.ok (.decision r))⟩)
    (hallows : allowsByApproval r = true) : StillStands answeredByApproval c tid ∧
      ∃ fingerprint, FoundFree c tid ⟨intent, fingerprint⟩ := by
  have hwon := hallows
  simp only [allowsByApproval, Bool.and_eq_true, Bool.not_eq_true', decide_eq_true_eq] at hallows
  obtain ⟨⟨hfresh, hallow⟩, -⟩ := hallows
  obtain ⟨s, hs, hanswered⟩ := hc.post custody Job.session (job_follows R) ht
  obtain ⟨verdict, row, hverdict, hrow, hv, -, -⟩ := hanswered hfresh hallow
  obtain ⟨txn, verdict', risk, time, htxn, -, -⟩ := (session_sound hc hs).recorded row hrow
  obtain ⟨intent', hcanonical, hfree⟩ := foundFree_of_allowed hc hs htxn hverdict hv
  have hintent : intent' = intent :=
    Option.some.inj (hcanonical.ofIntent.symm.trans (intent_of_job hs ht))
  exact ⟨.inr ⟨_, s, ht, hs, hwon⟩, txn.fingerprint, hintent ▸ hfree⟩

/-- In a run that keeps the slots among the requests of one approval, an approval is used once. -/
theorem approval_used_once (R : Runtime) (c : Config)
    (hc : Reachable (machine R) (slotsKept sameApproval answeredByApproval) c) :
    ApprovalUsedOnce c := by
  intro t t' intent intent' credential credential' execute execute' r r' a hne ht ht' ha ha' hallows
  by_contra hallows'
  rw [Bool.not_eq_false] at hallows'
  obtain ⟨hstands, fingerprint, hfree⟩ := foundFree_of_answered hc ht hallows
  obtain ⟨hstands', fingerprint', hfree'⟩ := foundFree_of_answered hc ht' hallows'
  exact one_rival_stands sameApproval_symm hc t t' _ _ hne ⟨a, ha, ha'⟩ hfree hfree' hstands
    hstands'

/-! ## Two runs -/

/-- The policy of the user `u` that parks every order, over three units a day. -/
def parkingPolicy : SpendingPolicy :=
  { Scenario.policy "u" 100 10 with
    dailyLimit := 300
    dailyLimit_fits := Scenario.threeUnits_fit }

/-- The claims of the token granted for the first order. -/
def grantedClaims : ApprovalClaims where
  sub := "u"
  jti := 5
  iat := 1000000
  exp := 1000900
  approvalRequestId := 0
  boundMerchantId := "m"
  boundAmount := "1"
  boundCurrency := "USD"
  boundCartHash := Scenario.firstOrder.cartHash Scenario.runtime

/-- The order again, under another key and with the token. -/
def approvedOrder (key : String) (hkey : 8 ≤ key.length ∧ key.length ≤ 128 := by decide) :
    PaymentIntent :=
  Scenario.order "u" key "s" (some (.signed grantedClaims)) Scenario.user_length hkey
    Scenario.sku_length

/-- An order is parked and its approval is granted. -/
def parkedAndGranted : List (Label Job Env Outcome) :=
  [Scenario.request Scenario.firstOrder false] ++ steps 0 (Scenario.toInsertion ++ oks 10) ++
    [.spawn (.grantApproval 0)] ++ steps 1 (oks 13)

/-- The order is sent with its token, from the start to the answer. -/
def sendApproved (tid : ℕ) (key : String)
    (hkey : 8 ≤ key.length ∧ key.length ≤ 128 := by decide) : List (Label Job Env Outcome) :=
  [Scenario.request (approvedOrder key hkey) false] ++
    steps tid (oks 10 ++ [Scenario.clean] ++ oks 41)

/-- The approval a thread was allowed by. -/
def usedApproval (c : Config) (tid : ℕ) : Option ℕ :=
  match (c.threads[tid]? : Option RequestThread) with
  | some ⟨.paymentIntent intent _ _, .ret (.ok (.decision r))⟩ =>
      if allowsByApproval r then presentedApproval intent else none
  | _ => none

theorem usedApproval_eq_some {tid a : ℕ} (h : usedApproval c tid = some a) :
    ∃ intent credential execute r, c.threads[tid]? =
      some ⟨.paymentIntent intent credential execute, .ret (.ok (.decision r))⟩ ∧
      presentedApproval intent = some a ∧ allowsByApproval r = true := by
  unfold usedApproval at h
  split at h
  · rename_i intent credential execute r ht
    split at h
    · rename_i hallows
      exact ⟨intent, credential, execute, r, ht, h, hallows⟩
    · cases h
  · cases h

theorem approval_used_once_granted : ∃ c : Config, Reachable (machine Scenario.runtime)
      (slotsKept sameApproval answeredByApproval) c ∧ usedApproval c 2 = some 0 ∧
    ApprovalUsedOnce c := by
  have hrun : executes Scenario.runtime { run := othersSettled answeredByApproval }
      (Scenario.world parkingPolicy) (parkedAndGranted ++ sendApproved 2 "key-0002")
      (fun c => usedApproval c 2 = some 0) = true := by decide +kernel
  obtain ⟨c, hc, hused⟩ :=
    exists_reachable_checked (slotsKept_checked sameApproval answeredByApproval) trivial hrun
  exact ⟨c, hc, hused, approval_used_once _ c hc⟩

/-- The token is presented in two buckets of the clock. -/
def nextBucket : List (Label Job Env Outcome) :=
  parkedAndGranted ++ sendApproved 2 "key-0002" Scenario.secondKey_length ++
    [.act (.tick (seconds 300))] ++ sendApproved 3 "key-0003"

/-- Two payments are allowed by one approval. -/
theorem approval_used_twice : ¬ ∀ (R : Runtime) (c : Config), Reachable (machine R) {} c →
    ApprovalUsedOnce c := by
  intro h
  have hrun : executes Scenario.runtime {} (Scenario.world parkingPolicy) nextBucket
      (fun c => usedApproval c 2 = some 0 ∧ usedApproval c 3 = some 0) = true := by decide +kernel
  obtain ⟨c, hc, hused, hused'⟩ := exists_reachable hrun
  obtain ⟨intent, credential, execute, r, ht, ha, hallows⟩ := usedApproval_eq_some hused
  obtain ⟨intent', credential', execute', r', ht', ha', hallows'⟩ := usedApproval_eq_some hused'
  have hnot := h _ c hc 2 3 _ _ _ _ _ _ _ _ 0 (by decide) ht ht' ha ha' hallows
  cases hnot.symm.trans hallows'

end AgentPay.Properties
