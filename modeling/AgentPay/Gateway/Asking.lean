import AgentPay.Gateway.Testimony

/-!
# What lies behind an answer

One specification for each program of a payment request against the protocol `asking`, from the
approach to the critical section through the lookup of the record to the stored answer. The result is
`job_asks`: whatever its operations answer, a request performs only operations of its own and
operations beside its work, and its answer is a refusal, a replay or a verdict (`Decided`).
-/

set_option autoImplicit false

namespace AgentPay.Gateway

open AgentPay.Library AgentPay.Policies

/-! ## The answer -/

/-- The answer a replay makes of the stored one. -/
def replayOf (stored : DecisionResponse) : DecisionResponse :=
  { stored with
    replayed := true
    message := "idempotent replay: identical stored response returned" }

/-- A refusal in place of a verdict. -/
structure Refusal (r : DecisionResponse) : Prop where
  decision : r.decision = .block
  replayed : r.replayed = false
  reason : r.reasonCodes.head? = some "INVALID_IDENTITY" ∨
    r.reasonCodes = ["RATE_LIMIT_EXCEEDED"] ∨ r.reasonCodes = ["CONCURRENT_REQUEST_IN_FLIGHT"]

/-- Why a request does not get the stored answer: it looked nothing up, one of its operations
failed, or the lookup did not find the answer to its payload. -/
def Hindered (R : Runtime) (intent : PaymentIntent) (s : Memory) : Prop :=
  NoLookup s ∨ Prog.Failed s ∨ ∃ txn, Works R intent txn s ∧ Unmatched txn s

/-- What lies behind an answer. -/
inductive Decided (R : Runtime) (intent : PaymentIntent) (credential : Credential) (s : Memory) :
    DecisionResponse → Prop
  | refused {r : DecisionResponse} (h : Refusal r) (hwhy : Hindered R intent s) :
      Decided R intent credential s r
  | replayed {txn : CanonicalTransaction} {stored : DecisionResponse}
      (ha : Admitted credential intent s) (hw : Works R intent txn s)
      (hget : ⟨.get (idemKey txn.userId txn.idempotencyKey),
        .ok (some (.idempotencyRecord txn.payloadHash stored))⟩ ∈ s) :
      Decided R intent credential s (replayOf stored)
  | fresh {txn : CanonicalTransaction} {r : DecisionResponse} (ha : Admitted credential intent s)
      (hw : Works R intent txn s) (h : Fresh txn r s) : Decided R intent credential s r

/-! ## Authorization and submission -/

section Submission

variable {R : Runtime} {intent : PaymentIntent} {txn : CanonicalTransaction} {s : Memory}

/-- An operation beside the work, or a charge. -/
def Charges (op : Op) : Prop := Aside op ∨ ∃ token body, op = .sendCharge token body

theorem charges_submit (R : Runtime) (txn : CanonicalTransaction) (token : IssuedToken) :
    (submit R txn token).Only Charges := by
  have hstate : ∀ target reference detail,
      (setState R txn.paymentAuthorizationId target reference detail true).Only Charges :=
    fun target reference detail => (aside_setState R _ target reference detail true).mono
      fun _ => .inl
  refine Prog.Only.bind ((Prog.only_perform _ _).2 (.inl trivial)) fun row => ?_
  cases row with
  | none => trivial
  | some row =>
      simp only
      split
      · trivial
      · refine Prog.Only.bind ((Prog.only_perform _ _).2 (.inl trivial)) fun _ => ?_
        refine Prog.Only.bind (hstate _ _ _) fun _ => ?_
        refine Prog.Only.bind (Prog.Only.recover ?_ fun e => ?_) fun answer => ?_
        · refine Prog.Only.bind ((Prog.only_perform _ _).2 (.inr ⟨_, _, rfl⟩)) fun _ => ?_
          exact Prog.Only.bind ((Prog.only_perform _ _).2 (.inl trivial)) fun _ => trivial
        · split <;> trivial
        · cases answer with
          | inl reply => exact (aside_settleReply R txn reply).mono fun _ => .inl
          | inr failure =>
              exact Prog.Only.bind (hstate _ _ _) fun _ =>
                Prog.Only.bind (hstate _ _ _) fun _ => trivial

/-- What a request has, and keeps, from the lookup to the stored answer. -/
structure Working (R : Runtime) (intent : PaymentIntent) (txn : CanonicalTransaction)
    (s : Memory) : Prop where
  works : Works R intent txn s
  record : Inside (idemLock txn) s
  slot : Inside (fingerprintLock txn) s
  unmatched : Unmatched txn s
  unrecorded : Unrecorded txn s

/-- The operations from the lookup to the stored answer. -/
def Underway : Op → Prop
  | .insertTransaction _ | .signAuthorization _ | .sendCharge .. => True
  | op => Aside op

theorem underway_of_aside {op : Op} (h : Aside op) : Underway op := by
  cases op <;> first | exact h | trivial

theorem underway_of_charges {op : Op} (h : Charges op) : Underway op := by
  rcases h with h | ⟨token, body, rfl⟩
  · exact underway_of_aside h
  · trivial

theorem Working.extends {s' : Memory} (hs : Working R intent txn s) (h : Extends Underway s s') :
    Working R intent txn s' where
  works := hs.works.extends h
  record := hs.record.extends (fun _ hop => not_commonKey (idemLock_mem txn) hop) h
  slot := hs.slot.extends (fun _ hop => not_commonKey (fingerprintLock_mem txn) hop) h
  unmatched := hs.unmatched.extends h
  unrecorded := hs.unrecorded.extends (fun _ _ hop => not_commonKey (idemKey_mem txn) hop) h

theorem asks_of_aside (s : Memory) (op : Op) (h : Aside op) : Asks R intent s op := .inl h

/-- A credential is signed once, for a transaction the policy allows. -/
theorem asks_authorize {verdict : PDPResult} (policyVersion : String)
    (hs : Working R intent txn s) (hj : Judged txn verdict s) (hallow : verdict.decision = .allow)
    (hunsigned : ¬ Signed s) : (authorize R txn policyVersion).Follows (asking R intent) s
      (Prog.Returns fun _ s' => Extends Underway s s' ∧ Signed s') := by
  refine Prog.Follows.bind_returns (R := fun _ s' => Extends Underway s s' ∧ Signed s') ?_
    fun token s₁ ⟨h₁, hsigned⟩ => ?_
  · have hclock : Aside .now ∧ Aside .uuid4 := ⟨trivial, trivial⟩
    refine Prog.Follows.perform_seen hclock.1 asks_of_aside fun time s₁ h₁ _ => ?_
    refine Prog.Follows.perform_seen hclock.2 asks_of_aside fun jti s₂ h₂ _ => ?_
    have h₂ := h₁.trans h₂
    have hs₂ := hs.extends (h₂.mono fun _ => underway_of_aside)
    refine Prog.Follows.perform_returns ?_ fun _ => ?_
    · exact .inr ⟨txn, verdict, hs₂.works, hs₂.unmatched, hs₂.slot, hj.extends h₂, hallow,
        fun hsigned => hunsigned (hsigned.of_extends (fun _ => id) h₂)⟩
    · refine ⟨(h₂.mono fun _ => underway_of_aside).trans (Extends.cons ?_ _ _), _, _,
        List.mem_cons_self⟩
      trivial
  · refine (aside_storeToken txn token).extends_bind asks_of_aside fun _ s₂ h₂ => ?_
    refine (aside_setState R _ _ _ _ _).extends_bind asks_of_aside fun _ s₃ h₃ => ?_
    obtain ⟨claims, answer, hmem⟩ := hsigned
    exact ⟨h₁.trans ((h₂.trans h₃).mono fun _ => underway_of_aside), claims, answer,
      h₃.mem (h₂.mem hmem)⟩

theorem asks_submit (token : IssuedToken) (hs : Working R intent txn s) (hsigned : Signed s) :
    (submit R txn token).Follows (asking R intent) s (fun _ s' => Extends Charges s s') := by
  refine (charges_submit R txn token).extends_while
    (I := fun s => Works R intent txn s ∧ Unmatched txn s ∧ Signed s) ?_ ?_
    ⟨hs.works, hs.unmatched, hsigned⟩
  · rintro s s' ⟨hw, hu, claims, answer, hmem⟩ h
    exact ⟨hw.extends h, hu.extends h, claims, answer, h.mem hmem⟩
  · rintro s op ⟨hw, hu, hsigned⟩ (hop | ⟨token, body, rfl⟩)
    · exact .inl hop
    · exact .inr ⟨txn, hw, hu, hsigned⟩

/-- A credential is signed for an allowed transaction only. -/
theorem asks_finish {verdict : PDPResult} (response : DecisionResponse) (execute : Bool)
    (hs : Working R intent txn s) (hj : Judged txn verdict s) (hunsigned : ¬ Signed s) :
    (finish R txn verdict response execute).Follows (asking R intent) s
      (Prog.Returns fun r s' => Extends Underway s s' ∧ SameAnswer response r ∧
        (Signed s' → verdict.decision = .allow)) := by
  have hkept : ∀ {s'}, Extends Aside s s' → ¬ Signed s' :=
    fun h hsigned => hunsigned (hsigned.of_extends (fun _ => id) h)
  unfold finish
  cases hd : verdict.decision with
  | block =>
      refine (aside_setState R _ _ _ _ _).extends_bind asks_of_aside fun _ s₁ h₁ => ?_
      exact ⟨h₁.mono fun _ => underway_of_aside, ⟨rfl, rfl, rfl, rfl⟩,
        fun hsigned => absurd hsigned (hkept h₁)⟩
  | requireApproval =>
      refine (aside_createRequest txn _).extends_bind asks_of_aside fun _ s₁ h₁ => ?_
      exact ⟨h₁.mono fun _ => underway_of_aside, ⟨rfl, rfl, rfl, rfl⟩,
        fun hsigned => absurd hsigned (hkept h₁)⟩
  | allow =>
      refine (aside_recordVelocity txn).extends_bind asks_of_aside fun _ s₁ h₁ => ?_
      have hstage := h₁.mono fun _ => underway_of_aside
      refine (asks_authorize verdict.policyVersion (hs.extends hstage) (hj.extends h₁) hd
        (hkept h₁)).bind_returns fun token s₂ ⟨h₂, hsigned⟩ => ?_
      simp only
      split
      · refine (asks_submit token ((hs.extends hstage).extends h₂) hsigned).bind
          (fun provider s₃ h₃ => ?_) fun _ _ _ => trivial
        exact ⟨(hstage.trans h₂).trans (h₃.mono fun _ => underway_of_charges), ⟨rfl, rfl, rfl, rfl⟩,
          fun _ => trivial⟩
      · exact ⟨hstage.trans h₂, ⟨rfl, rfl, rfl, rfl⟩, fun _ => trivial⟩

end Submission

/-! ## The stored answer -/

section Conclusion

variable {R : Runtime} {intent : PaymentIntent} {txn : CanonicalTransaction} {s : Memory}

/-- A write to the store. -/
def Writes : Op → Prop
  | .set .. => True
  | _ => False

/-- The record is stored once, by a request that found none. -/
theorem asks_rememberOutcome {response : DecisionResponse} (reserve : Bool)
    (hs : Working R intent txn s) (hr : Fresh txn response s)
    (hnone : ⟨.get (idemKey txn.userId txn.idempotencyKey), .ok none⟩ ∈ s) :
    (rememberOutcome R txn response reserve).Follows (asking R intent) s
      (Prog.Returns fun _ s' => Fresh txn response s') := by
  have hgrow : ∀ (s : Memory) key value ex answer,
      Extends Writes s (⟨.set key value ex, answer⟩ :: s) := fun s key value ex answer => by
    have hset : Writes (.set key value ex) := trivial
    exact Extends.cons hset answer s
  have hset : ∀ {s s' : Memory}, Fresh txn response s → Extends Writes s s' →
      Fresh txn response s' := fun hr h => hr.extends (fun _ => id) h
  refine Prog.Follows.perform_returns (.inr ⟨txn, hs.works, rfl, rfl, rfl, hs.record, hnone,
    hs.unrecorded, hr⟩) fun _ => ?_
  split
  · refine ⟨.inr ⟨txn, hs.works.extends (hgrow _ _ _ _ _), rfl, rfl, rfl,
      hs.slot.extends (fun _ => id) (hgrow _ _ _ _ _)⟩, fun answer => ?_⟩
    cases answer with
    | error e => trivial
    | ok _ => exact hset (hset hr (hgrow _ _ _ _ _)) (hgrow _ _ _ _ _)
  · exact hset hr (hgrow _ _ _ _ _)

theorem Fresh.congr {r r' : DecisionResponse} (hr : Fresh txn r s) (h : SameAnswer r r') :
    Fresh txn r' s where
  unmatched := hr.unmatched
  replayed := h.replayed.trans hr.replayed
  id := h.id.trans hr.id
  judged := by
    obtain ⟨verdict, hj, hdecision, hreasons⟩ := hr.judged
    exact ⟨verdict, hj, h.decision.trans hdecision, h.reasonCodes.trans hreasons⟩
  signed hsigned := h.decision.trans (hr.signed hsigned)

theorem asks_concludeRequest {outcome : IdempotencyOutcome} {verdict : PDPResult}
    {event : EventFields} {response : DecisionResponse} (hs : Working R intent txn s)
    (hr : Fresh txn response s) (houtcome : outcome.isConflict = false →
      ⟨.get (idemKey txn.userId txn.idempotencyKey), .ok none⟩ ∈ s) :
    (concludeRequest R txn outcome verdict event response).Follows (asking R intent) s
      (Prog.Returns fun r s' => Fresh txn r s') := by
  refine (aside_recordEventSafe R event).extends_bind asks_of_aside fun recorded s₁ h₁ => ?_
  have hr₁ : Fresh txn { response with auditEventId := recorded.1, auditHash := recorded.2 } s₁ :=
    (hr.extends (fun _ => id) h₁).congr ⟨rfl, rfl, rfl, rfl⟩
  simp only
  split
  case isTrue h =>
      rw [Bool.and_eq_true, Bool.not_eq_true'] at h
      exact (asks_rememberOutcome _ (hs.extends (h₁.mono fun _ => underway_of_aside)) hr₁
        (h₁.mem (houtcome h.1))).bind_returns fun _ _ h₂ => h₂
  case isFalse _ => exact hr₁

/-- The stages after the decision. -/
theorem asks_carryOut (execute : Bool) {outcome : IdempotencyOutcome} (analysis : AnalysisResult)
    (ctx : PolicyContext) {verdict : PDPResult} (hs : Working R intent txn s)
    (hj : Judged txn verdict s) (hunsigned : ¬ Signed s)
    (houtcome : outcome.isConflict = false →
      ⟨.get (idemKey txn.userId txn.idempotencyKey), .ok none⟩ ∈ s) :
    (carryOut R txn execute outcome analysis ctx verdict).Follows (asking R intent) s
      (Prog.Returns fun r s' => Fresh txn r s') := by
  have hnow : Aside .now := trivial
  have hkept : ∀ {s'}, Extends Aside s s' → ¬ Signed s' :=
    fun h hsigned => hunsigned (hsigned.of_extends (fun _ => id) h)
  refine Prog.Follows.perform_seen hnow asks_of_aside fun createdAt s₁ h₁ _ => ?_
  refine Prog.Follows.bind_returns (R := fun _ s' => Extends Underway s s' ∧ ¬ Signed s') ?_
    fun _ s₂ ⟨h₂, hunsigned₂⟩ => ?_
  · refine Prog.Follows.perform_seen hnow asks_of_aside fun now s₂ h₂ _ => ?_
    have h₂ := h₁.trans h₂
    refine ⟨.inr ⟨txn, hs.works.extends h₂, hs.unmatched.extends h₂⟩, fun inserted => ?_⟩
    cases inserted with
    | error e => trivial
    | ok _ =>
        refine ⟨(h₂.mono fun _ => underway_of_aside).trans (Extends.cons ?_ _ _), fun hsigned => ?_⟩
        · trivial
        · obtain ⟨claims, answer, hmem⟩ := hsigned
          rcases List.mem_cons.1 hmem with heq | hmem
          · cases heq
          · exact hkept h₂ ⟨claims, answer, hmem⟩
  · refine (asks_finish _ execute (hs.extends h₂) (hj.extends h₂) hunsigned₂).bind_returns
      fun response s₃ ⟨h₃, hsame, hsigned⟩ => ?_
    have hstage := h₂.trans h₃
    refine asks_concludeRequest (hs.extends hstage) ?_ fun h => hstage.mem (houtcome h)
    exact ⟨hs.unmatched.extends hstage, hsame.replayed, hsame.id,
      ⟨verdict, hj.extends hstage, hsame.decision, hsame.reasonCodes⟩,
      fun h => hsame.decision.trans (hsigned h)⟩

end Conclusion

/-! ## The evidence -/

section Readings

variable {R : Runtime} {intent : PaymentIntent} {txn : CanonicalTransaction} {s : Memory}

/-- The context is that of what was read. -/
theorem asks_loadContext (txn : CanonicalTransaction) :
    (loadContext txn).Follows (asking R intent) s (Prog.Returns fun ctx s' => Extends Aside s s' ∧
      ∃ policy merchant agent spent count, ⟨.getPolicy txn.delegationId, .ok policy⟩ ∈ s' ∧
        ⟨.getMerchant txn.merchantId, .ok merchant⟩ ∈ s' ∧
        ⟨.getAgent txn.agentId, .ok agent⟩ ∈ s' ∧
        ctx = contextOf txn policy merchant agent spent count) := by
  have hread : Aside (.getPolicy txn.delegationId) ∧ Aside (.getMerchant txn.merchantId) ∧
    Aside (.getAgent txn.agentId) := ⟨trivial, trivial, trivial⟩
  refine Prog.Follows.perform_seen hread.1 asks_of_aside fun policy s₁ h₁ hpolicy => ?_
  refine Prog.Follows.perform_seen hread.2.1 asks_of_aside fun merchant s₂ h₂ hmerchant => ?_
  refine Prog.Follows.perform_seen hread.2.2 asks_of_aside fun agent s₃ h₃ hagent => ?_
  refine Prog.Follows.perform_seen (A := Aside) trivial asks_of_aside fun now s₄ h₄ _ => ?_
  refine Prog.Follows.perform_seen (A := Aside) trivial asks_of_aside fun spent s₅ h₅ _ => ?_
  refine Prog.Only.extends_bind (A := Aside) ?_ asks_of_aside fun count s₆ h₆ => ?_
  · exact Prog.Only.bind ((Prog.only_perform _ _).2 trivial) fun _ =>
      (Prog.only_perform _ _).2 trivial
  · have hrest := (h₄.trans h₅).trans h₆
    exact ⟨((h₁.trans h₂).trans h₃).trans hrest, policy, merchant, agent, spent, count,
      hrest.mem (h₃.mem (h₂.mem hpolicy)), hrest.mem (h₃.mem hmerchant), hrest.mem hagent, rfl⟩

/-- A finding that is present and valid is that of a presented token that was verified. -/
theorem asks_evaluateToken (token : Option ApprovalToken) :
    (evaluateToken token).Follows (asking R intent) s
      (Prog.Returns fun finding s' => Extends Aside s s' ∧
        (finding.present = true → finding.valid = true → ∃ claims,
          token = some (.signed claims) ∧ findingOfClaims claims = some finding ∧
            ⟨.verifyApproval claims, .ok true⟩ ∈ s')) := by
  cases token with
  | none => exact ⟨Extends.refl _ s, fun h => nomatch h⟩
  | some token =>
      cases token with
      | garbage => exact ⟨Extends.refl _ s, fun _ h => nomatch h⟩
      | signed claims =>
          have hread : Aside (.verifyApproval claims) ∧ Aside .now := ⟨trivial, trivial⟩
          refine Prog.Follows.perform_seen hread.1 asks_of_aside fun genuine s₁ h₁ hverify => ?_
          refine Prog.Follows.perform_seen hread.2 asks_of_aside fun now s₂ h₂ _ => ?_
          cases genuine with
          | false => exact ⟨h₁.trans h₂, fun _ h => nomatch h⟩
          | true =>
              simp only [if_true]
              split
              · exact ⟨h₁.trans h₂, fun _ h => nomatch h⟩
              · cases hf : findingOfClaims claims with
                | none => trivial
                | some finding =>
                    exact ⟨h₁.trans h₂, fun _ _ => ⟨claims, rfl, hf, h₂.mem hverify⟩⟩

/-- The stages after the duplicate check. -/
theorem asks_enforce (userId : String) (execute : Bool) {outcome : IdempotencyOutcome}
    (hs : Working R intent txn s) (hunsigned : ¬ Signed s)
    (houtcome : outcome.finding.idempotencyConflict = false →
      outcome.finding.fingerprintConflict = false →
        ⟨.get (idemKey txn.userId txn.idempotencyKey), .ok none⟩ ∈ s ∧
          ∃ seen, ⟨.get (fingerprintKey txn.fingerprint), .ok seen⟩ ∈ s ∧
            slotTaken txn seen = false) :
    (enforce R txn userId execute outcome).Follows (asking R intent) s
      (Prog.Returns fun r s' => Fresh txn r s') := by
  have hkept : ∀ {s'}, Extends Aside s s' → Working R intent txn s' ∧ ¬ Signed s' :=
    fun h => ⟨hs.extends (h.mono fun _ => underway_of_aside),
      fun hsigned => hunsigned (hsigned.of_extends (fun _ => id) h)⟩
  refine Prog.Follows.perform_seen (A := Aside) trivial asks_of_aside fun analysis s₁ h₁ _ => ?_
  refine (asks_loadContext txn).bind_returns fun ctx s₂ ⟨h₂, policy, merchant, agent, spent, count,
    hpolicy, hmerchant, hagent, hctx⟩ => ?_
  refine (asks_evaluateToken txn.approvalToken).bind_returns fun approval s₃ ⟨h₃, happroval⟩ => ?_
  have hjudge : Aside (.evaluatePolicy
    (buildInput (evidenceOf R txn userId outcome analysis ctx approval))) := trivial
  refine Prog.Follows.perform_seen hjudge asks_of_aside fun answer s₄ h₄ hanswer => ?_
  obtain ⟨hs₄, hunsigned₄⟩ := hkept (((h₁.trans h₂).trans h₃).trans h₄)
  have hstart := ((h₁.trans h₂).trans h₃).trans h₄
  refine asks_carryOut execute analysis ctx hs₄ ?_ hunsigned₄ fun h => ?_
  · refine ⟨evidenceOf R txn userId outcome analysis ctx approval, answer, ⟨rfl, ?_, ?_, ?_⟩,
      hanswer, rfl⟩
    · exact ⟨policy, merchant, agent, spent, count, h₄.mem (h₃.mem hpolicy),
        h₄.mem (h₃.mem hmerchant), h₄.mem (h₃.mem hagent), hctx⟩
    · intro hi hf
      obtain ⟨hnone, seen, hseen, hfree⟩ := houtcome hi hf
      exact ⟨hstart.mem hnone, seen, hstart.mem hseen, hfree⟩
    · intro hp hv
      obtain ⟨claims, htoken, hfinding, hverify⟩ := happroval hp hv
      exact ⟨claims, htoken, hfinding, h₄.mem hverify⟩
  · rw [IdempotencyOutcome.isConflict, Bool.or_eq_false_iff] at h
    exact hstart.mem (houtcome h.1 h.2).1

end Readings

/-! ## The lookup -/

section Lookup

variable {R : Runtime} {intent : PaymentIntent} {credential : Credential}
  {txn : CanonicalTransaction} {s : Memory}

/-- A reading of the store. -/
def Reads : Op → Prop
  | .get _ => True
  | _ => False

/-- The duplicate check found the answer to this payload, or did not; then it reports no conflict
only if there was no record and the slot was free. -/
structure Looked (txn : CanonicalTransaction) (outcome : IdempotencyOutcome) (s : Memory) :
    Prop where
  found : ∀ stored, outcome.replayResponse = some stored →
    ⟨.get (idemKey txn.userId txn.idempotencyKey),
      .ok (some (.idempotencyRecord txn.payloadHash stored))⟩ ∈ s
  unmatched : outcome.replayResponse = none → Unmatched txn s
  free : outcome.replayResponse = none → outcome.finding.idempotencyConflict = false →
    outcome.finding.fingerprintConflict = false →
      ⟨.get (idemKey txn.userId txn.idempotencyKey), .ok none⟩ ∈ s ∧
        ∃ seen, ⟨.get (fingerprintKey txn.fingerprint), .ok seen⟩ ∈ s ∧ slotTaken txn seen = false

/-- The lookup found a value. -/
theorem looked_of_record {stored : Stored}
    (hget : ⟨.get (idemKey txn.userId txn.idempotencyKey), .ok (some stored)⟩ ∈ s) :
    Looked txn (outcomeOfRecord txn stored) s := by
  have hother : (∀ response, stored ≠ .idempotencyRecord txn.payloadHash response) →
      outcomeOfRecord txn stored = { finding := { idempotencyConflict := true } } := by
    intro hne
    cases stored with
    | idempotencyRecord payloadHash response =>
        exact if_neg fun h => hne response (by rw [h])
    | _ => rfl
  by_cases hmatch : ∃ response, stored = .idempotencyRecord txn.payloadHash response
  · obtain ⟨response, rfl⟩ := hmatch
    have heq : outcomeOfRecord txn (.idempotencyRecord txn.payloadHash response) =
        { finding := {}, replayResponse := some response } := if_pos rfl
    rw [heq]
    refine ⟨fun r hr => ?_, fun h => ?_, fun h => ?_⟩
    · cases hr
      exact hget
    · cases h
    · cases h
  · have hne : ∀ response, stored ≠ .idempotencyRecord txn.payloadHash response :=
      fun response h => hmatch ⟨response, h⟩
    rw [hother hne]
    refine ⟨fun r hr => ?_, fun _ => ⟨_, hget, fun response h => ?_⟩, fun _ hi => ?_⟩
    · cases hr
    · exact hne response (Option.some.inj h)
    · cases hi

/-- The lookup found nothing. -/
theorem looked_of_none {seen : Option Stored}
    (hnone : ⟨.get (idemKey txn.userId txn.idempotencyKey), .ok none⟩ ∈ s)
    (hseen : ⟨.get (fingerprintKey txn.fingerprint), .ok seen⟩ ∈ s) :
    Looked txn { finding := { fingerprintConflict := slotTaken txn seen } } s where
  found _ h := by cases h
  unmatched _ := ⟨none, hnone, fun _ h => by cases h⟩
  free _ _ hf := ⟨hnone, seen, hseen, hf⟩

theorem asks_checkDuplicate (hw : Works R intent txn s) (hrecord : Inside (idemLock txn) s)
    (hslot : Inside (fingerprintLock txn) s) :
    (checkDuplicate txn).Follows (asking R intent) s
      (Prog.Gives (fun outcome s' => Extends Reads s s' ∧ Looked txn outcome s') Prog.Failed) := by
  have hread : ∀ key, Reads (.get key) := fun _ => trivial
  refine Prog.Follows.perform (.inr ⟨txn, hw, .inl ⟨rfl, hrecord⟩⟩) (fun raw => ?_) fun e =>
    ⟨_, e, List.mem_cons_self⟩
  have h₁ := Extends.cons (hread (idemKey txn.userId txn.idempotencyKey)) (.ok raw : Except Exn _) s
  cases raw with
  | some stored => exact ⟨h₁, looked_of_record List.mem_cons_self⟩
  | none =>
      refine Prog.Follows.perform (.inr ⟨txn, hw.extends h₁, .inr ⟨rfl, ?_⟩⟩) (fun seen => ?_)
        fun e => ⟨_, e, List.mem_cons_self⟩
      · exact hslot.extends (fun _ => id) h₁
      · refine ⟨h₁.trans (Extends.cons (hread _) _ _), looked_of_none ?_ List.mem_cons_self⟩
        exact List.mem_cons_of_mem _ List.mem_cons_self

/-- The answer of the critical section. -/
inductive Replied (txn : CanonicalTransaction) (s : Memory) : DecisionResponse → Prop
  | replayed {stored : DecisionResponse} (hget : ⟨.get (idemKey txn.userId txn.idempotencyKey),
      .ok (some (.idempotencyRecord txn.payloadHash stored))⟩ ∈ s) : Replied txn s (replayOf stored)
  | fresh {r : DecisionResponse} (h : Fresh txn r s) : Replied txn s r

theorem Replied.extends {A : Op → Prop} {r : DecisionResponse} {s' : Memory}
    (hr : Replied txn s r) (hA : ∀ claims, ¬ A (.signAuthorization claims))
    (h : Extends A s s') : Replied txn s' r := by
  cases hr with
  | replayed hget => exact .replayed (h.mem hget)
  | fresh hr => exact .fresh (hr.extends hA h)

theorem Hindered.extends {A : Op → Prop} {s' : Memory} (hh : Hindered R intent s)
    (hA : ∀ key, ¬ A (.get key)) (h : Extends A s s') : Hindered R intent s' := by
  rcases hh with hn | ⟨op, e, hmem⟩ | ⟨txn, hw, hu⟩
  · exact .inl (hn.extends hA h)
  · exact .inr (.inl ⟨op, e, h.mem hmem⟩)
  · exact .inr (.inr ⟨txn, hw.extends h, hu.extends h⟩)

/-- A replay performs nothing of its own, and it raises nothing unless an operation failed. -/
theorem asks_replay (stored : DecisionResponse) :
    (replay R txn stored).Follows (asking R intent) s
      (Prog.Gives (fun r s' => Extends Aside s s' ∧ r = replayOf stored) Prog.Failed) := by
  have hraises : (replay R txn stored).Raises fun _ => False :=
    Prog.Raises.bind (raises_recordEventSafe R _) fun _ => trivial
  have hreturns : (replay R txn stored).Follows (asking R intent) s
      (Prog.Returns fun r s' => Extends Aside s s' ∧ r = replayOf stored) :=
    (aside_recordEventSafe R _).extends_bind asks_of_aside fun _ _ h => ⟨h, rfl⟩
  refine (Prog.Follows.raises hraises hreturns).mono fun r s' ⟨hr, hfailed⟩ => ?_
  cases r with
  | ok r => exact hr
  | error e => exact (hfailed e rfl).resolve_left id

theorem asks_runPipeline (userId : String) (execute : Bool) (hw : Works R intent txn s)
    (hrecord : Inside (idemLock txn) s) (hslot : Inside (fingerprintLock txn) s)
    (hunsigned : ¬ Signed s) (hunrecorded : Unrecorded txn s) :
    (runPipeline R txn userId execute).Follows (asking R intent) s
      (Prog.Gives (fun r s' => Replied txn s' r) (Hindered R intent)) := by
  refine (asks_checkDuplicate hw hrecord hslot).bind (fun outcome s₁ ⟨h₁, hlooked⟩ => ?_)
    fun _ _ hfailed => .inr (.inl hfailed)
  cases hreplay : outcome.replayResponse with
  | some stored =>
      refine (asks_replay stored).mono_gives (fun r s₂ ⟨h₂, hr⟩ => ?_) fun _ => .inr ∘ .inl
      subst hr
      exact .replayed (h₂.mem (hlooked.found stored hreplay))
  | none =>
      have hunmatched := hlooked.unmatched hreplay
      have hworking : Working R intent txn s₁ :=
        ⟨hw.extends h₁, hrecord.extends (fun _ => id) h₁, hslot.extends (fun _ => id) h₁, hunmatched,
          hunrecorded.extends (fun _ _ => id) h₁⟩
      have henforce := asks_enforce userId execute hworking
        (fun hsigned => hunsigned (hsigned.of_extends (fun _ => id) h₁)) (hlooked.free hreplay)
      refine (henforce.gives fun s₂ h₂ => ?_).mono_gives (fun r _ => .fresh) fun _ => id
      exact .inr (.inr ⟨txn, hworking.works.extends h₂, hunmatched.extends h₂⟩)

end Lookup

/-! ## The critical section -/

section Section

variable {R : Runtime} {intent : PaymentIntent} {credential : Credential}
  {txn : CanonicalTransaction} {s : Memory}

/-- The operations that take a lock. -/
def Takes (name : String) : Op → Prop
  | .setNx key _ _ => key = lockKey name
  | .sleep | .uuid4 => True
  | _ => False

/-- The release of a lock. -/
def Releases : Op → Prop
  | .deleteIfValue .. => True
  | _ => False

/-- The lock is one of the transaction's two. -/
def OwnLock (txn : CanonicalTransaction) (name : String) : Prop :=
  lockKey name = lockKey (idemLock txn) ∨ lockKey name = lockKey (fingerprintLock txn)

/-- The lock is acquired, or the attempts are used up, or an operation failed. -/
theorem asks_acquire {name : String} (hname : OwnLock txn name) (token ttl n : ℕ)
    (hw : Works R intent txn s) : (acquire name token ttl n).Follows (asking R intent) s
      (fun r s' => Extends (Takes name) s s' ∧
        (r = .ok () → ∃ token ttl, ⟨.setNx (lockKey name) token ttl, .ok true⟩ ∈ s')) := by
  induction n generalizing s with
  | zero => exact ⟨Extends.refl _ s, fun h => nomatch h⟩
  | succ n ih =>
      have htry : Takes name (.setNx (lockKey name) token ttl) := rfl
      have hsleep : Takes name .sleep := trivial
      refine Prog.Follows.perform (.inr ⟨txn, hw, hname⟩) (fun taken => ?_) fun e =>
        ⟨Extends.cons htry _ s, fun h => nomatch h⟩
      cases taken with
      | true => exact ⟨Extends.cons htry _ s, fun _ => ⟨token, ttl, List.mem_cons_self⟩⟩
      | false =>
          have h₁ := Extends.cons htry (.ok false : Except Exn _) s
          refine Prog.Follows.perform (.inl trivial) (fun _ => ?_) fun e =>
            ⟨h₁.trans (Extends.cons hsleep _ _), fun h => nomatch h⟩
          have h₂ := h₁.trans (Extends.cons hsleep (.ok () : Except Exn _) _)
          exact (ih (hw.extends h₂)).mono fun r s' ⟨h₃, hok⟩ => ⟨h₂.trans h₃, hok⟩

/-- A block under a lock runs inside it. What holds after the block is not lost by the release. -/
theorem asks_withLock {α : Type} {name : String} (hname : OwnLock txn name) (ttl : ℕ)
    {body : Py α} {Q : α → Memory → Prop} {T : Memory → Prop} (hw : Works R intent txn s)
    (hheld : ∀ token answer, ⟨.deleteIfValue (lockKey name) token, answer⟩ ∉ s)
    (hbody : ∀ s', Extends (Takes name) s s' → Inside name s' →
      body.Follows (asking R intent) s' (Prog.Gives Q T))
    (hmissed : ∀ s', Extends (Takes name) s s' → T s') (hfailed : ∀ s', Prog.Failed s' → T s')
    (hQ : ∀ a s' token answer, Q a s' → Q a (⟨.deleteIfValue (lockKey name) token, answer⟩ :: s'))
    (hT : ∀ s' token answer, T s' → T (⟨.deleteIfValue (lockKey name) token, answer⟩ :: s')) :
    (withLock name ttl body).Follows (asking R intent) s (Prog.Gives Q T) := by
  have hdraw : Takes name .uuid4 := trivial
  refine Prog.Follows.perform (.inl trivial) (fun token => ?_) fun e =>
    hmissed _ (Extends.cons hdraw _ s)
  have h₁ := Extends.cons hdraw (.ok token : Except Exn _) s
  refine (asks_acquire hname token ttl lockAttempts (hw.extends h₁)).bind
    (fun _ s₂ ⟨h₂, hok⟩ => ?_) fun e s₂ ⟨h₂, _⟩ => hmissed s₂ (h₁.trans h₂)
  have h₂ := h₁.trans h₂
  rw [Prog.follows_ensure]
  refine (hbody s₂ h₂ ⟨hok rfl, fun token answer hmem => ?_⟩).grows.mono fun r s₃ ⟨hr, h₃⟩ => ?_
  · rcases h₂.mem_cases hmem with hop | hmem
    · exact hop
    · exact hheld token answer hmem
  · have hw₃ := (hw.extends h₂).extends h₃
    refine Prog.Follows.perform (.inr ⟨txn, hw₃, hname⟩) (fun answer => ?_) fun e =>
      hfailed _ ⟨_, e, List.mem_cons_self⟩
    cases r with
    | ok a => exact hQ a s₃ _ _ hr
    | error e => exact hT s₃ _ _ hr

/-- The request has not come to its critical section. -/
def Approaching (s : Memory) : Prop := ∀ e ∈ s, Aside e.1

namespace Approaching

theorem approach {s' : Memory} (hs : Approaching s) (h : Extends Aside s s') : Approaching s' :=
  h.forall_mem hs fun _ => id

theorem noLookup (hs : Approaching s) : NoLookup s := fun _ _ hmem => hs _ hmem

theorem unsigned (hs : Approaching s) : ¬ Signed s := by
  rintro ⟨claims, answer, hmem⟩
  exact hs _ hmem

theorem unrecorded (hs : Approaching s) (txn : CanonicalTransaction) : Unrecorded txn s :=
  fun _ _ _ hmem => not_commonKey (idemKey_mem txn) (hs _ hmem)

theorem unreleased (hs : Approaching s) {name : String} (hname : OwnLock txn name) (token : ℕ)
    (answer : Except Exn Bool) : ⟨.deleteIfValue (lockKey name) token, answer⟩ ∉ s := by
  intro hmem
  have hcommon : CommonKey (lockKey name) := hs _ hmem
  rcases hname with h | h
  · exact not_commonKey (idemLock_mem txn) (h ▸ hcommon)
  · exact not_commonKey (fingerprintLock_mem txn) (h ▸ hcommon)

end Approaching

/-- The answer to a request that did not get its locks. -/
theorem asks_concurrentRequest (drawn : ℕ) (hh : Hindered R intent s) :
    (concurrentRequest R drawn).Follows (asking R intent) s
      (Prog.Gives (fun r s' => Refusal r ∧ Hindered R intent s') (Hindered R intent)) := by
  have hclock : Aside .now := trivial
  refine Prog.Follows.perform (.inl trivial) (fun createdAt => ?_) fun e =>
    hh.extends (fun _ => id) (Extends.cons hclock _ s)
  exact ⟨⟨rfl, rfl, .inr (.inr rfl)⟩, hh.extends (fun _ => id) (Extends.cons hclock _ s)⟩

/-- The two locks around the critical section. -/
theorem asks_criticalSection (userId : String) (execute : Bool) (hw : Works R intent txn s)
    (hs : Approaching s) :
    (withLock (idemLock txn) R.settings.lockTtlSeconds
      (withLock (fingerprintLock txn) fingerprintLockTtl
        (runPipeline R txn userId execute))).Follows (asking R intent) s
      (Prog.Gives (fun r s' => Replied txn s' r) (Hindered R intent)) := by
  have hreleased : ∀ {name : String} (r : DecisionResponse) (s' : Memory) token answer,
      Replied txn s' r → Replied txn (⟨.deleteIfValue (lockKey name) token, answer⟩ :: s') r := by
    intro name r s' token answer hr
    have hkind : Releases (.deleteIfValue (lockKey name) token) := trivial
    exact hr.extends (fun _ => id) (Extends.cons hkind answer s')
  have hhindered : ∀ {name : String} (s' : Memory) token answer, Hindered R intent s' →
      Hindered R intent (⟨.deleteIfValue (lockKey name) token, answer⟩ :: s') := by
    intro name s' token answer hr
    have hkind : Releases (.deleteIfValue (lockKey name) token) := trivial
    exact hr.extends (fun _ => id) (Extends.cons hkind answer s')
  refine asks_withLock (.inl rfl) _ hw (hs.unreleased (.inl rfl)) (fun s₁ h₁ hrecord => ?_)
    (fun s₁ h₁ => .inl (hs.noLookup.extends (fun _ => id) h₁)) (fun _ => .inr ∘ .inl) hreleased
    hhindered
  refine asks_withLock (.inr rfl) _ (hw.extends h₁) (fun token answer hmem => ?_)
    (fun s₂ h₂ hslot => ?_) (fun s₂ h₂ => .inl ?_) (fun _ => .inr ∘ .inl) hreleased hhindered
  · rcases h₁.mem_cases hmem with hop | hmem
    · exact hop
    · exact hs.unreleased (.inr rfl) token answer hmem
  · refine asks_runPipeline userId execute ((hw.extends h₁).extends h₂)
      (hrecord.extends (fun _ => id) h₂) hslot (fun hsigned => ?_) ?_
    · exact hs.unsigned ((hsigned.of_extends (fun _ => id) h₂).of_extends (fun _ => id) h₁)
    · exact ((hs.unrecorded txn).extends (fun _ _ => id) h₁).extends (fun _ _ => id) h₂
  · exact (hs.noLookup.extends (fun _ => id) h₁).extends (fun _ => id) h₂

theorem asks_guardedPipeline {identity : AgentIdentity} (execute : Bool)
    (huser : identity.userId = intent.userId) (hagent : identity.agentId = intent.agentId)
    (hdelegation : identity.delegationId = intent.delegationId)
    (ha : Admitted credential intent s) (hs : Approaching s) :
    (guardedPipeline R intent identity execute).Follows (asking R intent) s
      (Prog.Gives (fun r s' => Decided R intent credential s' r) (Hindered R intent)) := by
  have hclock : Aside .uuid4 ∧ Aside .now := ⟨trivial, trivial⟩
  refine Prog.Follows.perform (.inl trivial) (fun drawn => ?_) fun e =>
    .inl (hs.approach (Extends.cons hclock.1 _ s)).noLookup
  have h₁ := Extends.cons hclock.1 (.ok drawn : Except Exn _) s
  refine Prog.Follows.perform (.inl trivial) (fun timestamp => ?_) fun e =>
    .inl (hs.approach (h₁.trans (Extends.cons hclock.2 _ _))).noLookup
  have h₂ := h₁.trans (Extends.cons hclock.2 (.ok timestamp : Except Exn _) _)
  have hw : Works R intent (buildCanonical R intent identity drawn timestamp)
      (⟨.now, .ok timestamp⟩ :: ⟨.uuid4, .ok drawn⟩ :: s) :=
    ⟨identity, drawn, timestamp, rfl, huser, hagent, hdelegation,
      List.mem_cons_of_mem _ List.mem_cons_self, List.mem_cons_self⟩
  refine (Prog.follows_recover _ _ _ _).2 ?_
  refine (asks_criticalSection identity.userId execute hw (hs.approach h₂)).grows.mono
    fun r s₃ ⟨hr, h₃⟩ => ?_
  cases r with
  | ok r =>
      have ha₃ := (ha.extends h₂).extends h₃
      cases hr with
      | replayed hget => exact .replayed ha₃ (hw.extends h₃) hget
      | fresh hr => exact .fresh ha₃ (hw.extends h₃) hr
  | error e =>
      cases e with
      | timeoutError =>
          exact (asks_concurrentRequest drawn hr).mono_gives
            (fun r s₄ ⟨hrefusal, hwhy⟩ => .refused hrefusal hwhy) fun _ h => h
      | _ => exact hr

end Section

/-! ## The request -/

/-- An identity that was decoded is that of a signed token which has not expired. -/
theorem decodeDelegationToken_ok {now : Time} {credential : Credential} {identity : AgentIdentity}
    (h : decodeDelegationToken now credential = .ok identity) :
    ∃ claims, credential = .signed claims ∧ now < seconds claims.exp ∧
      claims.agentId = some identity.agentId ∧ claims.sub = identity.userId ∧
      claims.delegationId = some identity.delegationId ∧ claims.scopes = identity.scopes := by
  have hpresent : ∀ {claim : Option String} {value : String},
      presentClaim claim = some value → claim = some value :=
    fun h => (Option.filter_eq_some_iff.1 h).1
  cases credential with
  | missing => cases h
  | garbage => cases h
  | signed claims =>
      simp only [decodeDelegationToken] at h
      split at h
      case isTrue => cases h
      case isFalse hexp =>
          split at h
          case h_1 agentId delegationId hagent hdelegation =>
              cases h
              exact ⟨claims, rfl, not_le.1 hexp, hpresent hagent, rfl, hpresent hdelegation, rfl⟩
          case h_2 => cases h

theorem delegationId_of_bindingMismatches {identity : AgentIdentity} {intent : PaymentIntent}
    (h : bindingMismatches identity intent = []) :
    identity.delegationId = intent.delegationId := by
  by_contra hne
  rw [bindingMismatches, if_pos hne] at h
  exact absurd (List.append_eq_nil_iff.1 h).2 (List.cons_ne_nil _ _)

section Request

variable {R : Runtime} {intent : PaymentIntent} {s : Memory}

/-- A revocation that is found raises, and so does a check that fails. -/
theorem asks_assertNotRevoked (delegationId : String) :
    (assertNotRevoked delegationId).Follows (asking R intent) s (fun r s' => Extends Aside s s' ∧
      (r = .ok () → ⟨.isRevoked delegationId, .ok false⟩ ∈ s')) := by
  have hcheck : Aside (.isRevoked delegationId) := trivial
  refine (Prog.follows_bind _ _ _ _).2 ((Prog.follows_recover _ _ _ _).2 ⟨.inl trivial, ?_⟩)
  intro answer
  have h₁ := Extends.cons hcheck answer s
  cases answer with
  | error e =>
      change Prog.Follows (asking R intent) (if _ then _ else _) _ _
      split
      · exact ⟨h₁, fun h => nomatch h⟩
      · exact ⟨h₁, fun h => nomatch h⟩
  | ok revoked =>
      cases revoked with
      | true => exact ⟨h₁, fun h => nomatch h⟩
      | false => exact ⟨h₁, fun _ => List.mem_cons_self⟩

theorem asks_authenticate (credential : Credential) :
    (authenticate credential intent).Follows (asking R intent) s (fun r s' =>
      Extends Aside s s' ∧ ∀ identity, r = .ok identity → Admitted credential intent s' ∧
        identity.userId = intent.userId ∧ identity.agentId = intent.agentId ∧
        identity.delegationId = intent.delegationId) := by
  have hclock : Aside .now := trivial
  refine Prog.Follows.perform (.inl trivial) (fun now => ?_) fun e =>
    ⟨Extends.cons hclock _ s, fun _ h => nomatch h⟩
  have h₁ := Extends.cons hclock (.ok now : Except Exn _) s
  cases hdecode : decodeDelegationToken now credential with
  | error e => exact ⟨h₁, fun _ h => nomatch h⟩
  | ok identity =>
      obtain ⟨claims, rfl, hexp, hagent, hsub, hdelegation, hscopes⟩ :=
        decodeDelegationToken_ok hdecode
      change Prog.Follows (asking R intent) (if _ then _ else _) _ _
      by_cases hm : bindingMismatches identity intent = []
      · rw [if_neg (not_not.2 hm)]
        obtain ⟨huser, hagentId⟩ := eq_of_bindingMismatches hm
        have hdelegationId := delegationId_of_bindingMismatches hm
        split
        case isTrue => exact ⟨h₁, fun _ h => nomatch h⟩
        case isFalse hscope =>
            refine (asks_assertNotRevoked identity.delegationId).bind (fun _ s₂ ⟨h₂, hok⟩ => ?_)
              fun e s₂ ⟨h₂, _⟩ => ⟨h₁.trans h₂, fun _ h => nomatch h⟩
            refine ⟨h₁.trans h₂, fun identity' h => ?_⟩
            cases h
            refine ⟨⟨claims, now, rfl, hagentId ▸ hagent, hsub.trans huser,
              hdelegationId ▸ hdelegation, ?_, h₂.mem List.mem_cons_self, hexp, ?_⟩, huser, hagentId,
              hdelegationId⟩
            · rw [hscopes]
              exact not_not.1 hscope
            · exact hdelegationId ▸ hok rfl
      · rw [if_pos hm]
        exact ⟨h₁, fun _ h => nomatch h⟩

/-- A refusal before the critical section. -/
theorem asks_blockedBeforePipeline {reasonCodes : List String} (message stage : String)
    (hs : Approaching s) (hreason : reasonCodes.head? = some "INVALID_IDENTITY" ∨
      reasonCodes = ["RATE_LIMIT_EXCEEDED"]) :
    (blockedBeforePipeline R intent reasonCodes message stage).Follows (asking R intent) s
      (Prog.Gives (fun r s' => Refusal r ∧ Hindered R intent s') (Hindered R intent)) := by
  have haside := (aside_blockedBeforePipeline R intent reasonCodes message stage).extends
    (@asks_of_aside R intent) s
  have hreturns : (blockedBeforePipeline R intent reasonCodes message stage).Follows
      (asking R intent) s (Prog.Returns fun r _ => Refusal r) := by
    refine Prog.Follows.perform_seen (A := Aside) trivial asks_of_aside fun drawn s₁ _ _ => ?_
    refine (aside_recordEventSafe R _).extends_bind asks_of_aside fun recorded s₂ _ => ?_
    refine Prog.Follows.perform_seen (A := Aside) trivial asks_of_aside fun createdAt s₃ _ _ => ?_
    exact ⟨rfl, rfl, hreason.imp_right .inl⟩
  refine (hreturns.and haside).mono fun r s' ⟨hr, h⟩ => ?_
  have hwhy : Hindered R intent s' := .inl (hs.approach h).noLookup
  cases r with
  | ok r => exact ⟨hr, hwhy⟩
  | error e => exact hwhy

theorem asks_admission {credential : Credential} {identity : AgentIdentity} (execute : Bool)
    (huser : identity.userId = intent.userId) (hagent : identity.agentId = intent.agentId)
    (hdelegation : identity.delegationId = intent.delegationId)
    (ha : Admitted credential intent s) (hs : Approaching s) :
    (admission R intent identity execute).Follows (asking R intent) s
      (Prog.Gives (fun r s' => Decided R intent credential s' r) (Hindered R intent)) := by
  rw [admission, Prog.follows_bind, Prog.follows_attempt]
  refine ((aside_enforceEdgeRateLimit R identity.agentId identity.delegationId).extends
    asks_of_aside s).mono fun admitted s₁ h₁ => ?_
  have hs₁ := hs.approach h₁
  cases admitted with
  | ok _ => exact asks_guardedPipeline execute huser hagent hdelegation (ha.extends h₁) hs₁
  | error e =>
      cases e with
      | rateLimitError scope limit =>
          exact (asks_blockedBeforePipeline _ _ hs₁ (.inr rfl)).mono_gives
            (fun r s' ⟨hr, hwhy⟩ => .refused hr hwhy) fun _ h => h
      | _ => exact .inl hs₁.noLookup

theorem asks_createPaymentIntent (credential : Credential) (execute : Bool) :
    (createPaymentIntent R intent credential execute).Follows (asking R intent) []
      (Prog.Gives (fun r s' => Decided R intent credential s' r) (Hindered R intent)) := by
  have hstart : Approaching [] := fun _ hmem => absurd hmem List.not_mem_nil
  rw [createPaymentIntent, Prog.follows_bind, Prog.follows_attempt]
  refine (asks_authenticate credential).mono fun authenticated s₁ hauthenticated => ?_
  obtain ⟨h₁, hok⟩ := hauthenticated
  have hs₁ := hstart.approach h₁
  cases authenticated with
  | ok identity =>
      obtain ⟨ha, huser, hagent, hdelegation⟩ := hok identity rfl
      exact asks_admission execute huser hagent hdelegation ha hs₁
  | error e =>
      cases e with
      | identityError reasonCode message =>
          exact (asks_blockedBeforePipeline _ _ hs₁ (.inl rfl)).mono_gives
            (fun r s' hrefused => .refused hrefused.1 hrefused.2) fun _ h => h
      | _ => exact .inl hs₁.noLookup

end Request

/-! ## The jobs -/

/-- The operations of the jobs that are not payment requests. -/
def Upkeep : Op → Prop
  | .get key => ∃ id, key = approvalKey id
  | .sendQuery _ => True
  | op => Aside op

theorem upkeep_of_aside {op : Op} (h : Aside op) : Upkeep op := by
  cases op <;> first | exact h | exact h.elim

theorem upkeep_loadRequest (id : ℕ) : (loadRequest id).Only Upkeep := by
  refine Prog.Only.bind ((Prog.only_perform _ _).2 ⟨id, rfl⟩) fun raw => ?_
  cases raw with
  | none => trivial
  | some stored => cases stored <;> trivial

theorem upkeep_grantApproval (R : Runtime) (id : ℕ) : (grantApproval R id).Only Upkeep := by
  have hgrant : (grant id).Only Upkeep := by
    refine Prog.Only.bind (upkeep_loadRequest id) fun request => ?_
    cases request with
    | none => trivial
    | some request =>
        refine Prog.Only.bind ((Prog.only_perform _ _).2 (.approval _)) fun _ => ?_
        refine Prog.Only.bind ((Prog.only_perform _ _).2 trivial) fun time => ?_
        refine Prog.Only.bind ((Prog.only_perform _ _).2 trivial) fun jti => ?_
        split
        · trivial
        · exact Prog.Only.bind ((Prog.only_perform _ _).2 trivial) fun _ => trivial
  refine Prog.Only.bind hgrant fun token => ?_
  cases token with
  | none => trivial
  | some token =>
      exact Prog.Only.bind (upkeep_loadRequest id) fun request =>
        Prog.Only.bind ((aside_recordEventSafe R _).mono fun _ => upkeep_of_aside) fun _ => trivial

theorem upkeep_setState (R : Runtime) (id : ℕ) (target : PaymentState) (reference : Option Json)
    (detail : Option String) {α : Type} (a : α) :
    (setState R id target reference detail true >>= fun _ => pure a : Py α).Only Upkeep :=
  Prog.Only.bind ((aside_setState R id target reference detail true).mono fun _ => upkeep_of_aside)
    fun _ => trivial

theorem upkeep_resolveReply (R : Runtime) (id : ℕ) (reply : ProviderReply) (counts : Resolved) :
    (resolveReply R id reply counts).Only Upkeep := by
  unfold resolveReply
  split
  · exact upkeep_setState R id _ _ _ _
  · split
    · trivial
    · refine Prog.Only.bind trivial fun payload => Prog.Only.bind trivial fun status => ?_
      split
      · exact Prog.Only.bind trivial fun reference => upkeep_setState R id _ _ _ _
      · refine Prog.Only.bind trivial fun refused => ?_
        split
        · exact upkeep_setState R id _ _ _ _
        · trivial

theorem upkeep_reconcilePending (R : Runtime) (pending : List (ℕ × String)) (counts : Resolved) :
    (reconcilePending R pending counts).Only Upkeep := by
  induction pending generalizing counts with
  | nil => trivial
  | cons payment pending ih =>
      refine Prog.Only.bind (Prog.Only.recover ?_ fun e => ?_) fun reply => ?_
      · exact Prog.Only.bind ((Prog.only_perform _ _).2 trivial) fun _ =>
          Prog.Only.bind ((Prog.only_perform _ _).2 trivial) fun _ => trivial
      · split <;> trivial
      · cases reply with
        | none => exact ih _
        | some reply => exact Prog.Only.bind (upkeep_resolveReply R _ reply _) fun _ => ih _

theorem upkeep_reconcileUnknown (R : Runtime) (maxAge : ℕ) :
    (reconcileUnknown R maxAge).Only Upkeep :=
  Prog.Only.bind ((Prog.only_perform _ _).2 trivial) fun _ =>
    Prog.Only.bind ((Prog.only_perform _ _).2 trivial) fun pending =>
      upkeep_reconcilePending R pending {}

theorem upkeep_expireStaleAuthorizations (R : Runtime) :
    (expireStaleAuthorizations R).Only Upkeep := by
  have hall : ∀ stale, (expireAll R stale).Only Upkeep := by
    intro stale
    induction stale with
    | nil => trivial
    | cons id stale ih =>
        exact Prog.Only.bind ((aside_setState R id _ _ _ _).mono fun _ => upkeep_of_aside) fun _ => ih
  exact Prog.Only.bind ((Prog.only_perform _ _).2 trivial) fun _ =>
    Prog.Only.bind ((Prog.only_perform _ _).2 trivial) fun stale =>
      Prog.Only.bind (hall stale) fun _ => trivial

theorem only_unhandled {A : Op → Prop} {α : Type} {p : Py α} (toResponse : α → Response)
    (h : p.Only A) : (unhandled toResponse p).Only A :=
  Prog.Only.recover (Prog.Only.bind h fun _ => trivial) fun e => by
    split <;> trivial

/-- The operations a job performs. -/
def Permits (R : Runtime) : Job → Memory → Op → Prop
  | .paymentIntent intent _ _, s, op => Asks R intent s op
  | _, _, op => Upkeep op

/-- What the result of a job says about what it has seen. -/
def Testifies (R : Runtime) : Job → Except Exn Response → Memory → Prop
  | .paymentIntent intent credential _, .ok (.decision r), s => Decided R intent credential s r
  | .paymentIntent intent _ _, .ok (.failClosed _), s => Hindered R intent s
  | .paymentIntent .., .ok _, _ => False
  | _, _, _ => True

/-- **Every job performs the operations it is permitted, and its result says what it has seen.** -/
theorem job_asks (R : Runtime) (job : Job) :
    (job.start R).Follows (watching (Permits R job)) [] (Testifies R job) := by
  have hupkeep : ∀ {p : Py Response} {G : Memory → Op → Prop}, p.Only Upkeep →
      (∀ s op, Upkeep op → G s op) → p.Follows (watching G) [] fun _ _ => True :=
    fun hp hG => (hp.extends hG []).mono fun _ _ _ => trivial
  cases job with
  | paymentIntent intent credential execute =>
      refine (Prog.follows_recover _ _ _ _).2 ((Prog.follows_bind _ _ _ _).2 ?_)
      refine (asks_createPaymentIntent credential execute).mono fun r s hr => ?_
      cases r with
      | ok r => exact hr
      | error e =>
          change Prog.Follows _ (if _ then _ else _) _ _
          split
          · exact hr
          · trivial
  | grantApproval id =>
      exact hupkeep (only_unhandled _ (upkeep_grantApproval R id)) fun _ _ h => h
  | reconcile =>
      refine hupkeep (only_unhandled _ ?_) fun _ _ h => h
      exact Prog.Only.bind (upkeep_reconcileUnknown R _) fun _ =>
        Prog.Only.bind (upkeep_expireStaleAuthorizations R) fun _ => trivial
  | reconcileUnknown =>
      exact hupkeep (only_unhandled _ (upkeep_reconcileUnknown R _)) fun _ _ h => h
  | expireStaleAuthorizations =>
      exact hupkeep (only_unhandled _ (upkeep_expireStaleAuthorizations R)) fun _ _ h => h

end AgentPay.Gateway
