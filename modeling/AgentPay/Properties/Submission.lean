import AgentPay.Gateway.Answers
import AgentPay.Gateway.Conformance
import AgentPay.Properties.Scenario

/-!
# Where a submission leaves its payment

`submit` on an authorized row whose token is unused, under any reaction of the provider and with
appends to the audit log that succeed or fail. Once the charge was sent, the payment is left confirmed,
failed or unknown exactly when the reaction is one the code concludes from (`submit_lands_iff`).
-/

set_option autoImplicit false

namespace AgentPay.Properties

open AgentPay.Library AgentPay.Gateway

section Submission

variable {W : Type} (answer : W → (op : Op) → Except Exn op.Val × W)
  (row : W → Option Transaction) (R : Runtime) (txn : CanonicalTransaction) (token : IssuedToken)

/-- The payment is left in a state that is final or that reconciliation picks up, and a returned
outcome names that state. -/
def Landed (result : Except Exn ProviderOutcome × W) : Prop :=
  ∃ r, row result.2 = some r ∧ r.state ∈ [PaymentState.confirmed, .failed, .unknown] ∧
    ∀ outcome, result.1 = .ok outcome → outcome.state = r.state

/-- The charge was sent. -/
def Sent (w : W) : Prop :=
  ∃ body, .sendCharge token.token body ∈ (submit R txn token).performed answer w

/-- The world after the token was consumed. -/
def consumed (w : W) : W :=
  (answer (answer w (.getTransaction txn.paymentAuthorizationId)).2
    (.commitUses txn.paymentAuthorizationId 1)).2

/-- The world in which the charge is sent. -/
def atCharge (w : W) : W :=
  ((setState R txn.paymentAuthorizationId .submitted none none true).eval answer
    (consumed answer txn w)).2

/-- The reply to the charge, or the detail of the transport failure. -/
def reaction (w : W) : Except Exn (ProviderReply ⊕ String) × W :=
  (postCharge txn token).eval answer (atCharge answer R txn w)

/-- The row while the charge is under way. -/
def submittedRow (r : Transaction) : Transaction :=
  { r with tokenUses := 1 }.withState .submitted none none

/-- The reactions `submit` concludes from: a reply it can read and whose transition the database
accepts, or a transport failure that the audit log takes. -/
def Concludes (r : Transaction) : Except Exn (ProviderReply ⊕ String) × W → Prop
  | (.ok (.inl reply), _) => ∃ t, settlement R reply = .ok t ∧ t.accepted = true
  | (.ok (.inr failure), w) =>
      let detail := some (firstChars 200 failure)
      storable none detail = true ∧
        ((recordEvent R (stateEvent (submittedRow r) txn.paymentAuthorizationId .timeout none
          detail)).eval answer
            (committed answer w txn.paymentAuthorizationId .timeout none detail)).1.isOk = true
  | (.error _, _) => False

/-- A reply to a charge is concluded with a confirmation or a failure. -/
theorem settlement_target {reply : ProviderReply} {t : Transition}
    (h : settlement R reply = .ok t) : t.target = .confirmed ∨ t.target = .failed := by
  unfold settlement at h
  split at h
  · cases h
    exact .inr rfl
  · split at h
    · cases h
      unfold settleBody
      split
      · exact .inl rfl
      · exact .inr rfl
    · cases h

/-- A payment that is submitted or timed out has not landed. -/
theorem not_landed {result : Except Exn ProviderOutcome × W} {r : Transaction}
    (hr : row result.2 = some r) (hstate : r.state = .submitted ∨ r.state = .timeout) :
    ¬ Landed row result := by
  rintro ⟨r', hr', hlanded, -⟩
  rw [hr, Option.some.injEq] at hr'
  subst hr'
  rcases hstate with hstate | hstate <;> rw [hstate] at hlanded <;> exact absurd hlanded (by decide)

variable {answer row R txn token}

/-- A transition that was made, with its outcome. -/
theorem landed_of_outcome {result : Except Exn PaymentState} {w : W} {r : Transaction}
    {outcome : ProviderOutcome} (hr : row w = some r)
    (hstate : r.state ∈ [PaymentState.confirmed, .failed, .unknown])
    (houtcome : outcome.state = r.state) : Landed row (result.map fun _ => outcome, w) := by
  refine ⟨r, hr, hstate, fun outcome' heq => ?_⟩
  cases result with
  | error e => cases heq
  | ok _ =>
      cases heq
      exact houtcome

variable (h : RowOracle answer txn.paymentAuthorizationId row)
include h

/-- A submitted payment lands on a reply exactly when the reply is read and its transition accepted. -/
theorem settle_landed {w : W} {r : Transaction} (hr : row w = some r)
    (hstate : r.state = .submitted) (reply : ProviderReply) :
    Landed row ((settleReply R txn reply).eval answer w) ↔
      ∃ t, settlement R reply = .ok t ∧ t.accepted = true := by
  rw [settleReply_eq]
  cases hread : settlement R reply with
  | error e =>
      refine iff_of_false (not_landed row (r := r) hr (.inl hstate)) ?_
      rintro ⟨t, ht, -⟩
      cases ht
  | ok t =>
      have htarget := settlement_target R hread
      have hvalid : t.target ∈ validTransitions r.state := by
        rw [hstate]
        rcases htarget with heq | heq <;> rw [heq] <;> decide
      simp only [Prog.eval_bind_pure, Except.ok.injEq, exists_eq_left']
      cases haccepted : t.accepted with
      | true =>
          obtain ⟨hrow, -⟩ := h.setState_accepted R hr hvalid haccepted
          refine iff_of_true (landed_of_outcome hrow ?_ rfl) rfl
          change t.target ∈ _
          rcases htarget with heq | heq <;> rw [heq] <;> decide
      | false =>
          obtain ⟨hrow, -⟩ := h.setState_refused R hr hvalid haccepted
          exact iff_of_false (not_landed row hrow (.inl hstate)) Bool.false_ne_true

theorem row_postCharge (w : W) : row ((postCharge txn token).eval answer w).2 = row w := by
  let A : Op → Prop := fun op => ¬ op.WritesRow txn.paymentAuthorizationId
  have hA : ∀ w op, A op → row (answer w op).2 = row w := fun w op hop => h.frame w op hop
  refine Prog.Only.eval_frame (A := A) hA ?_ w
  refine Prog.Only.recover (Prog.Only.bind ((Prog.only_perform _ _).2 id) fun _ => ?_) fun e => ?_
  · exact Prog.Only.bind ((Prog.only_perform _ _).2 id) fun _ => trivial
  · split <;> trivial

/-- A payment lands after a transport failure exactly when the timeout was recorded. -/
theorem timeout_landed {w : W} {r : Transaction} (hr : row w = some r)
    (hstate : r.state = .submitted) {detail : Option String} (outcome : ProviderOutcome)
    (houtcome : outcome.state = .unknown) :
    Landed row ((setState R txn.paymentAuthorizationId .timeout none detail true >>= fun _ =>
        setState R txn.paymentAuthorizationId .unknown none
          (some "awaiting reconciliation; not treated as success") true >>= fun _ =>
            (pure outcome : Py ProviderOutcome)).eval answer w) ↔
      storable none detail = true ∧
        ((recordEvent R (stateEvent r txn.paymentAuthorizationId .timeout none detail)).eval answer
          (committed answer w txn.paymentAuthorizationId .timeout none detail)).1.isOk = true := by
  have hvalid : PaymentState.timeout ∈ validTransitions r.state := by rw [hstate]; decide
  cases hs : storable none detail with
  | false =>
      obtain ⟨hrow, herror⟩ := h.setState_refused R hr hvalid hs
      rw [Prog.eval_bind_error herror]
      exact iff_of_false (not_landed row hrow (.inl hstate)) fun hand => Bool.false_ne_true hand.1
  | true =>
      obtain ⟨hrow, hresult⟩ := h.setState_accepted R hr hvalid hs
      cases happend : ((recordEvent R (stateEvent r txn.paymentAuthorizationId .timeout none
        detail)).eval answer (committed answer w txn.paymentAuthorizationId .timeout none
          detail)).1 with
      | error e =>
          rw [happend] at hresult
          rw [Prog.eval_bind_error hresult]
          exact iff_of_false (not_landed row hrow (.inr rfl)) fun hand => Bool.false_ne_true hand.2
      | ok recorded =>
          rw [happend] at hresult
          rw [Prog.eval_bind_ok hresult, Prog.eval_bind_pure]
          -- the second transition is accepted, and its append no longer matters
          have hvalid' : PaymentState.unknown ∈
              validTransitions (r.withState .timeout none detail).state := List.mem_singleton_self _
          have hstorable : storable none
              (some "awaiting reconciliation; not treated as success") = true := by decide
          obtain ⟨hrow', -⟩ := h.setState_accepted R hrow hvalid' hstorable
          refine iff_of_true (landed_of_outcome hrow' ?_ houtcome) ⟨rfl, rfl⟩
          change PaymentState.unknown ∈ _
          decide

omit h in
theorem submit_eq : submit R txn token = (perform (.getTransaction txn.paymentAuthorizationId) >>=
    fun row => match row with
      | none => Prog.throw .keyError
      | some row =>
          if 1 ≤ row.tokenUses then pure { state := .failed, detail := "token already consumed" }
          else perform (.commitUses txn.paymentAuthorizationId (row.tokenUses + 1)) >>= fun _ =>
            submitConsumed R txn token) := rfl

section Fresh

variable {w : W} {r : Transaction} (hr : row w = some r) (huses : r.tokenUses = 0)
include hr huses

/-- `submit` on a row whose token is unused consumes the token first. -/
theorem submit_consumes : (submit R txn token).eval answer w =
      (submitConsumed R txn token).eval answer (consumed answer txn w) ∧
    (submit R txn token).performed answer w = .getTransaction txn.paymentAuthorizationId ::
      .commitUses txn.paymentAuthorizationId 1 ::
        (submitConsumed R txn token).performed answer (consumed answer txn w) := by
  have hread : ((perform (.getTransaction txn.paymentAuthorizationId)).eval answer w).1 =
      .ok (some r) := by
    rw [Prog.eval_perform, h.read, hr]
  have huse := (h.uses (answer w (.getTransaction txn.paymentAuthorizationId)).2 1).1
  rw [submit_eq, Prog.eval_bind_ok hread, Prog.performed_bind_ok hread]
  simp only [if_neg (show ¬ 1 ≤ r.tokenUses by omega), Prog.eval_perform, Prog.performed_perform]
  rw [huses, Nat.zero_add, Prog.eval_bind_ok (p := perform _) huse, Prog.performed_bind_ok (p := perform _) huse]
  exact ⟨rfl, rfl⟩

omit huses in
theorem row_consumed : row (consumed answer txn w) = some { r with tokenUses := 1 } := by
  rw [consumed, (h.uses _ _).2, h.row_read, hr, Option.map_some]

variable (hstate : r.state = .authorized)
include hstate

/-- The charge is sent when the submission was recorded. -/
theorem sent_iff_recorded : Sent answer R txn token w ↔
    ((setState R txn.paymentAuthorizationId .submitted none none true).eval answer
      (consumed answer txn w)).1 = .ok .submitted := by
  constructor
  · rintro ⟨body, hbody⟩
    rw [(submit_consumes h hr huses).2] at hbody
    have hmem : .sendCharge token.token body ∈
        (submitConsumed R txn token).performed answer (consumed answer txn w) := by
      simpa using hbody
    have hquiet : ∀ op ∈ (setState R txn.paymentAuthorizationId .submitted none none
        true).performed answer (consumed answer txn w), op ≠ .sendCharge token.token body :=
      (setState_only R _ (A := fun op => op ≠ .sendCharge token.token body) (by simp) (by simp)
        (fun op hop heq => by rw [heq] at hop; exact hop) _ _ _ _).performed
    have hvalid : PaymentState.submitted ∈ validTransitions r.state := by rw [hstate]; decide
    have hstorable : storable none none = true := rfl
    obtain ⟨-, hresult⟩ := h.setState_accepted R (row_consumed h hr) hvalid hstorable
    rw [hresult]
    cases happend : ((recordEvent R (stateEvent { r with tokenUses := 1 }
        txn.paymentAuthorizationId .submitted none none)).eval answer (committed answer
          (consumed answer txn w) txn.paymentAuthorizationId .submitted none none)).1 with
    | ok recorded => rfl
    | error e =>
        rw [happend] at hresult
        rw [submitConsumed, Prog.performed_bind_error hresult] at hmem
        exact absurd rfl (hquiet _ hmem)
  · intro hrecorded
    refine ⟨chargeRequest txn, ?_⟩
    rw [(submit_consumes h hr huses).2, submitConsumed, Prog.performed_bind_ok hrecorded]
    exact List.mem_cons_of_mem _ (List.mem_cons_of_mem _
      (List.mem_append_right _ List.mem_cons_self))

omit huses in
/-- The row when the charge is sent. -/
theorem row_atCharge :
    row (atCharge answer R txn w) = some (submittedRow r) := by
  have hvalid : PaymentState.submitted ∈ validTransitions r.state := by rw [hstate]; decide
  exact (h.setState_accepted R (row_consumed h hr) hvalid rfl).1

/-- Once the charge was sent, the payment lands exactly when the reaction is one `submit` concludes
from. -/
theorem submit_lands_iff (hsent : Sent answer R txn token w) :
    Landed row ((submit R txn token).eval answer w) ↔
      Concludes answer R txn r (reaction answer R txn token w) := by
  have hrow' : row (reaction answer R txn token w).2 = some (submittedRow r) :=
    (row_postCharge h _).trans (row_atCharge h hr hstate)
  rw [(submit_consumes h hr huses).1, submitConsumed,
    Prog.eval_bind_ok ((sent_iff_recorded h hr huses hstate).1 hsent)]
  change Landed row ((postCharge txn token >>= _).eval answer (atCharge answer R txn w)) ↔ _
  rw [← Prod.mk.eta (p := reaction answer R txn token w)]
  cases hanswer : (reaction answer R txn token w).1 with
  | error e =>
      rw [Prog.eval_bind_error hanswer]
      exact iff_of_false (not_landed row hrow' (.inl rfl)) id
  | ok reply =>
      rw [Prog.eval_bind_ok hanswer]
      cases reply with
      | inl reply => exact settle_landed h hrow' rfl reply
      | inr failure => exact timeout_landed h hrow' rfl _ rfl

end Fresh

end Submission

/-- The provider answers every charge and query with one reply, in no time. -/
def replying (reply : ProviderReply) : Reactions where
  charge _ := .ok reply
  query _ := .ok reply
  elapse _ _ := 0

/-- The world with one payment. -/
def paymentWorld (state : PaymentState) : World where
  clock := seconds 1000000
  transactions := [Scenario.paymentRow 1 state (seconds 1000000)]

/-- The charge of the payment is sent in this world. -/
theorem payment_sent (reply : ProviderReply) : Sent (alone (replying reply)) Scenario.runtime
    Scenario.payment Scenario.paymentToken (paymentWorld .authorized) := by
  rw [sent_iff_recorded (alone_rowOracle _ _) rfl rfl rfl]
  rfl

/-- A reply that confirms a charge. -/
def confirming : ProviderReply where
  statusCode := 200
  text := ""
  json := some (.obj [("status", .str "confirmed"), ("provider_reference", .str "r")])

theorem confirming_lands : Landed (fun w => w.row? 1) ((submit Scenario.runtime Scenario.payment
    Scenario.paymentToken).eval (alone (replying confirming)) (paymentWorld .authorized)) :=
  (submit_lands_iff (alone_rowOracle _ _) rfl rfl rfl (payment_sent confirming)).2
    ⟨_, rfl, by decide⟩

/-- A success whose body is no JSON. -/
def unparsed : ProviderReply where
  statusCode := 200
  text := "ok"
  json := none

/-- The payment is stranded in the submitted state when the body of a success does not parse. -/
theorem unparsed_body_strands :
    Sent (alone (replying unparsed)) Scenario.runtime Scenario.payment Scenario.paymentToken
        (paymentWorld .authorized) ∧
      ¬ Landed (fun w => w.row? 1) ((submit Scenario.runtime Scenario.payment
        Scenario.paymentToken).eval (alone (replying unparsed)) (paymentWorld .authorized)) := by
  refine ⟨payment_sent unparsed, ?_⟩
  apply not_landed (r := submittedRow (Scenario.paymentRow 1 .authorized (seconds 1000000)))
  · rfl
  · exact .inl rfl

end AgentPay.Properties
