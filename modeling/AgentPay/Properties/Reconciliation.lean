import AgentPay.Gateway.PdpClient
import AgentPay.Properties.Submission

/-!
# Reconciliation

What `reconcile_unknown` makes of the answers of the provider. Its reading of a reply agrees with that
of `submit` exactly on the replies that are conclusive for it (`readers_agree_iff`). A pass that runs
alone does what it is for exactly when every unknown payment is recent enough to be selected and no
answer is one that it raises on or misreads (`reconciled_iff`).
-/

set_option autoImplicit false

namespace AgentPay.Properties

open AgentPay.Library AgentPay.Gateway

/-! ## The two readers -/

section Readers

variable {W : Type} {answer : W → (op : Op) → Except Exn op.Val × W} {row : W → Option Transaction}

/-- The state a payment is left in. -/
def stateAfter {α : Type} (row : W → Option Transaction) (result : Except Exn α × W) :
    Option PaymentState :=
  (row result.2).map Transaction.state

/-- The state `submit` records on a reply. -/
def settledState (R : Runtime) (reply : ProviderReply) : PaymentState :=
  match settlement R reply with
  | .ok t => if t.accepted then t.target else .submitted
  | .error _ => .submitted

/-- The state a reconciliation leaves an unknown payment in on a reply. -/
def resolvedState (reply : ProviderReply) : PaymentState :=
  match resolution reply with
  | .ok (some t) => if t.accepted then t.target else .unknown
  | _ => .unknown

/-- The status field is one of the texts. -/
def statusIn (texts : List String) (fields : List (String × Json)) : Bool :=
  texts.any fun text => Json.isText text (fieldOf "status" fields)

/-- A reply is conclusive for reconciliation, or has a body neither reader can read. -/
def Conclusive (reply : ProviderReply) : Prop :=
  reply.statusCode = 404 ∨ reply.statusCode < 400 ∧ ∀ fields, reply.fields? = some fields →
    statusIn ["confirmed", "failed", "declined"] fields = true

/-- A failure `submit` records is one reconciliation resolves, and both confirm the same replies. -/
structure Agree (submitted reconciled : Option PaymentState) : Prop where
  failed : submitted = some .failed → reconciled ≠ some .unknown
  confirmed : submitted = some .confirmed ↔ reconciled = some .confirmed

/-- A transition carried out leaves its target, or the row as it was. -/
theorem stateAfter_transition {id : ℕ} (h : RowOracle answer id row) (R : Runtime) {w : W}
    {r : Transaction} (hr : row w = some r) {t : Transition}
    (hvalid : t.target ∈ validTransitions r.state) {α : Type} (a : α) :
    stateAfter row ((setState R id t.target t.reference t.detail true >>= fun _ =>
      (pure a : Py α)).eval answer w) = some (if t.accepted then t.target else r.state) := by
  rw [Prog.eval_bind_pure, stateAfter]
  cases haccepted : t.accepted with
  | true =>
      rw [(h.setState_accepted R hr hvalid haccepted).1]
      rfl
  | false =>
      rw [(h.setState_refused R hr hvalid haccepted).1]
      rfl

theorem stateAfter_settleReply {txn : CanonicalTransaction}
    (h : RowOracle answer txn.paymentAuthorizationId row) (R : Runtime) {w : W} {r : Transaction}
    (hr : row w = some r) (hstate : r.state = .submitted) (reply : ProviderReply) :
    stateAfter row ((settleReply R txn reply).eval answer w) = some (settledState R reply) := by
  rw [settleReply_eq, settledState]
  cases hread : settlement R reply with
  | error e => exact congrArg (Option.map Transaction.state) hr |>.trans (congrArg some hstate)
  | ok t =>
      have hvalid : t.target ∈ validTransitions r.state := by
        rw [hstate]
        rcases settlement_target R hread with heq | heq <;> rw [heq] <;> decide
      rw [stateAfter_transition h R hr hvalid, hstate]

/-- A reply to a query is resolved with a confirmation or a failure. -/
theorem resolution_target {reply : ProviderReply} {t : Transition}
    (h : resolution reply = .ok (some t)) : t.target = .confirmed ∨ t.target = .failed := by
  unfold resolution at h
  split at h
  · cases h
    exact .inr rfl
  split at h
  · cases h
  split at h
  · unfold resolveBody at h
    split at h
    · cases h
      exact .inl rfl
    · generalize hashableIn _ _ = refused at h
      cases refused with
      | error e => cases h
      | ok refused =>
          cases refused <;> cases h
          exact .inr rfl
  · cases h

theorem resolution_valid {reply : ProviderReply} {t : Transition}
    (h : resolution reply = .ok (some t)) {r : Transaction} (hstate : r.state = .unknown) :
    t.target ∈ validTransitions r.state := by
  rw [hstate]
  rcases resolution_target h with heq | heq <;> rw [heq] <;> decide

theorem stateAfter_resolveReply {id : ℕ} (h : RowOracle answer id row) (R : Runtime) {w : W}
    {r : Transaction} (hr : row w = some r) (hstate : r.state = .unknown) (reply : ProviderReply)
    (counts : Resolved) : stateAfter row ((resolveReply R id reply counts).eval answer w) =
      some (resolvedState reply) := by
  rw [resolveReply_eq, resolvedState]
  have hsame := (congrArg (Option.map Transaction.state) hr).trans (congrArg some hstate)
  cases hread : resolution reply with
  | error e => exact hsame
  | ok t =>
      cases t with
      | none => exact hsame
      | some t =>
          simp only
          rw [stateAfter_transition h R hr (resolution_valid hread hstate), hstate]

end Readers

/-- Membership of the status in the texts of a refusal. -/
theorem hashableIn_refusal (status : Json) : hashableIn ["failed", "declined"] status =
    if Json.isText "failed" status || Json.isText "declined" status then .ok true
    else match status with
      | .arr _ | .obj _ => .error .typeError
      | _ => .ok false := by
  cases status with
  | str s =>
      by_cases hfailed : s = "failed"
      · subst hfailed
        rfl
      · by_cases hdeclined : s = "declined"
        · subst hdeclined
          rfl
        · simp [hashableIn, Json.isText, hfailed, hdeclined]
  | _ => rfl

/-- The state of a payment after a body that is an object. -/
theorem resolvedState_body {reply : ProviderReply} {fields : List (String × Json)}
    (hcode : reply.statusCode < 400) (hfields : reply.fields? = some fields) :
    resolvedState reply =
      if Json.isText "confirmed" (fieldOf "status" fields) then
        if storableReference (some (fieldOf "provider_reference" fields)) then .confirmed
        else .unknown
      else if Json.isText "failed" (fieldOf "status" fields) ||
          Json.isText "declined" (fieldOf "status" fields) then .failed
      else .unknown := by
  have hfound : ¬ reply.statusCode = 404 := by omega
  have hlow : ¬ 400 ≤ reply.statusCode := by omega
  simp only [resolvedState, resolution, if_neg hfound, if_neg hlow, hfields, resolveBody]
  by_cases hconfirmed : Json.isText "confirmed" (fieldOf "status" fields) = true
  · have hdetail : (some "resolved by reconciliation").all storableText = true := by decide
    simp only [if_pos hconfirmed, Transition.accepted, storable, hdetail, Bool.and_true]
  · simp only [if_neg hconfirmed, hashableIn_refusal]
    by_cases hrefused : (Json.isText "failed" (fieldOf "status" fields) ||
        Json.isText "declined" (fieldOf "status" fields)) = true
    · simp only [if_pos hrefused]
      rfl
    · simp only [if_neg hrefused]
      cases fieldOf "status" fields <;> rfl

/-- An unknown payment disagrees with a failure exactly when the failure is recorded. -/
theorem agree_unknown_iff (accepted : Bool) :
    Agree (some (if accepted then .failed else .submitted)) (some .unknown) ↔ accepted = false := by
  cases accepted with
  | true => exact iff_of_false (fun h => h.failed rfl rfl) Bool.noConfusion
  | false => exact iff_of_true ⟨by decide, by decide⟩ rfl

theorem agree_failed (accepted : Bool) :
    Agree (some (if accepted then .failed else .submitted)) (some .failed) := by
  cases accepted <;> exact ⟨by decide, by decide⟩

theorem agree_confirmed (accepted : Bool) :
    Agree (some (if accepted then .confirmed else .submitted))
      (some (if accepted then .confirmed else .unknown)) := by
  cases accepted <;> exact ⟨by decide, by decide⟩

/-- The readings agree exactly on a conclusive reply, or when the failure cannot be recorded. -/
theorem agree_states_iff (R : Runtime) (reply : ProviderReply) :
    Agree (some (settledState R reply)) (some (resolvedState reply)) ↔
      Conclusive reply ∨ ∀ t, settlement R reply = .ok t → t.accepted = false := by
  by_cases hhigh : 400 ≤ reply.statusCode
  · have hsettled : settlement R reply =
        .ok { target := .failed, detail := some (firstChars 200 reply.text) } := if_pos hhigh
    simp only [settledState, hsettled, Except.ok.injEq, forall_eq']
    by_cases hfound : reply.statusCode = 404
    · have hresolved : resolvedState reply = .failed := by
        simp only [resolvedState, resolution, if_pos hfound]
        decide
      rw [hresolved]
      exact iff_of_true (agree_failed _) (.inl (.inl hfound))
    · have hresolved : resolvedState reply = .unknown := by
        simp only [resolvedState, resolution, if_neg hfound, if_pos hhigh]
      have hconclusive : ¬ Conclusive reply := by
        rintro (hcode | ⟨hcode, -⟩) <;> omega
      rw [hresolved, agree_unknown_iff, or_iff_right hconclusive]
  · have hlow : reply.statusCode < 400 := Nat.not_le.1 hhigh
    have hfound : ¬ reply.statusCode = 404 := by omega
    cases hfields : reply.fields? with
    | none =>
        have hsettled : settlement R reply = .error (unreadable reply) := by
          simp only [settlement, if_neg hhigh, hfields]
        have hresolved : resolvedState reply = .unknown := by
          simp only [resolvedState, resolution, if_neg hfound, if_neg hhigh, hfields]
        have hstate : settledState R reply = .submitted := by rw [settledState, hsettled]
        rw [hstate, hresolved]
        refine iff_of_true ⟨by decide, by decide⟩ (.inr fun t ht => ?_)
        rw [hsettled] at ht
        cases ht
    | some fields =>
        have hsettled : settlement R reply = .ok (settleBody R fields) := by
          simp only [settlement, if_neg hhigh, hfields]
        have hconclusive : Conclusive reply ↔
            statusIn ["confirmed", "failed", "declined"] fields = true := by
          simp [Conclusive, hfound, hlow, hfields]
        rw [settledState, hsettled, resolvedState_body hlow hfields, hconclusive]
        simp only [Except.ok.injEq, forall_eq', statusIn, List.any_cons, List.any_nil, Bool.or_false]
        by_cases hconfirmed : Json.isText "confirmed" (fieldOf "status" fields) = true
        · have hbody : settleBody R fields = {
              target := .confirmed
              reference := some (fieldOf "provider_reference" fields) } := if_pos hconfirmed
          have haccepted : (settleBody R fields).accepted =
              storableReference (some (fieldOf "provider_reference" fields)) := by
            rw [hbody]
            exact Bool.and_true _
          rw [if_pos hconfirmed, haccepted, hbody]
          exact iff_of_true (agree_confirmed _) (.inl (by rw [hconfirmed]; rfl))
        · have hbody : (settleBody R fields).target = .failed := by
            rw [settleBody, if_neg hconfirmed]
          rw [if_neg hconfirmed, hbody, Bool.eq_false_iff.2 hconfirmed, Bool.false_or]
          by_cases hrefused : (Json.isText "failed" (fieldOf "status" fields) ||
              Json.isText "declined" (fieldOf "status" fields)) = true
          · rw [if_pos hrefused]
            exact iff_of_true (agree_failed _) (.inl hrefused)
          · rw [if_neg hrefused, agree_unknown_iff, or_iff_right hrefused]

/-- The two readers of provider answers agree on a reply exactly when it is conclusive for
reconciliation, or `submit` cannot record what it makes of it. -/
theorem readers_agree_iff {W V : Type} {answer : W → (op : Op) → Except Exn op.Val × W}
    {row : W → Option Transaction} {answer' : V → (op : Op) → Except Exn op.Val × V}
    {row' : V → Option Transaction} (R : Runtime) (txn : CanonicalTransaction)
    (h : RowOracle answer txn.paymentAuthorizationId row)
    (h' : RowOracle answer' txn.paymentAuthorizationId row') {w : W} {v : V} {r r' : Transaction}
    (hr : row w = some r) (hstate : r.state = .submitted) (hr' : row' v = some r')
    (hstate' : r'.state = .unknown) (reply : ProviderReply) (counts : Resolved) :
    Agree (stateAfter row ((settleReply R txn reply).eval answer w))
        (stateAfter row'
          ((resolveReply R txn.paymentAuthorizationId reply counts).eval answer' v)) ↔
      Conclusive reply ∨ ∀ t, settlement R reply = .ok t → t.accepted = false := by
  rw [stateAfter_settleReply h R hr hstate, stateAfter_resolveReply h' R hr' hstate',
    agree_states_iff]

/-- A reply that confirms is read alike. -/
theorem readers_agree_confirming : Agree
    (stateAfter (fun w => w.row? 1) ((settleReply Scenario.runtime Scenario.payment confirming).eval
      (alone (replying confirming)) (paymentWorld .submitted)))
    (stateAfter (fun w => w.row? 1) ((resolveReply Scenario.runtime 1 confirming {}).eval
      (alone (replying confirming)) (paymentWorld .unknown))) :=
  (readers_agree_iff Scenario.runtime Scenario.payment (alone_rowOracle _ _) (alone_rowOracle _ _)
    rfl rfl rfl rfl confirming {}).2 (.inl (.inr ⟨by decide, by
      intro fields hfields
      cases hfields
      decide⟩))

/-- An answer that the provider has trouble. -/
def serverError : ProviderReply where
  statusCode := 500
  text := "internal error"
  json := none

/-- The two readers disagree on a server error: `submit` records a failure, and reconciliation
keeps the payment unknown. -/
theorem server_error_disagrees : ¬ Agree
    (stateAfter (fun w => w.row? 1) ((settleReply Scenario.runtime Scenario.payment
      serverError).eval (alone (replying serverError)) (paymentWorld .submitted)))
    (stateAfter (fun w => w.row? 1) ((resolveReply Scenario.runtime 1 serverError {}).eval
      (alone (replying serverError)) (paymentWorld .unknown))) := by
  intro h
  exact h.failed rfl rfl

/-! ## A pass alone -/

/-- What a pass does with the answer to a query: it leaves the payment (`some none`), makes a
transition, or raises (`none`). -/
def passOn : Except Exn ProviderReply → Option (Option Transition)
  | .error _ => some none
  | .ok reply => match resolution reply with
    | .ok (some t) => if t.accepted then some (some t) else none
    | .ok none => some none
    | .error _ => none

/-- The row after a transition, if one is made. -/
def rowAfter (t : Option Transition) (r : Transaction) : Transaction :=
  t.elim r fun t => r.withState t.target t.reference t.detail

/-- The pass for one payment. -/
def resolveOne (R : Runtime) (id : ℕ) (counts : Resolved) : Py Resolved :=
  queryCharge id >>= fun reply => match reply with
    | none => pure (counts.add none)
    | some reply => resolveReply R id reply counts

/-- The number of payments counted. -/
def Resolved.total (counts : Resolved) : ℕ :=
  counts.confirmed + counts.failed + counts.stillUnknown

theorem total_add (counts : Resolved) (t : Option Transition) :
    Resolved.total (counts.add t) = Resolved.total counts + 1 := by
  unfold Resolved.total
  cases t with
  | none => exact (Nat.add_assoc _ _ _).symm
  | some t =>
      rw [Resolved.add]
      split
      · simp only
        omega
      · simp only
        omega

/-- The loop takes the payments one after another. -/
theorem reconcilePending_cons (R : Runtime) (p : ℕ × String) (pending : List (ℕ × String))
    (counts : Resolved) : reconcilePending R (p :: pending) counts =
      resolveOne R p.1 counts >>= reconcilePending R pending := by
  rw [resolveOne, Prog.bind_assoc]
  change queryCharge p.1 >>= _ = queryCharge p.1 >>= _
  congr 1
  funext reply
  cases reply <;> rfl

section Alone

variable (x : Reactions) (hhttp : ∀ id e, x.query id = .error e → e.isHttpError = true)
  {w : World} (hfree : w.ChainFree)
include hhttp hfree

/-- Alone, a query is answered as the provider reacts, and changes nothing. -/
theorem queryCharge_alone (id : ℕ) :
    ((queryCharge id).eval (alone x) w).1 = .ok (x.query id).toOption ∧
      ((queryCharge id).eval (alone x) w).2.ChainFree ∧
        ((queryCharge id).eval (alone x) w).2.transactions = w.transactions := by
  have hsent : ((perform (.sendQuery id)).eval (alone x) w).1 = .ok () := rfl
  have hfree' : ((perform (.sendQuery id)).eval (alone x) w).2.ChainFree :=
    hfree.later rfl (Nat.le_add_right _ _)
  have hsame : ((perform (.sendQuery id)).eval (alone x) w).2.transactions = w.transactions := rfl
  rw [queryCharge, Prog.eval_recover, Prog.eval_bind_ok hsent]
  generalize ((perform (.sendQuery id)).eval (alone x) w).2 = w₁ at hfree' hsame ⊢
  rw [← hsame]
  have hleft : ((perform (.awaitQuery id)).eval (alone x) w₁).2.ChainFree :=
    hfree'.later rfl (Nat.le_add_right _ _)
  cases hquery : x.query id with
  | error e =>
      have hanswer : ((perform (.awaitQuery id)).eval (alone x) w₁).1 = .error e := hquery
      rw [Prog.eval_bind_error hanswer]
      simp only [hhttp id e hquery, if_true]
      exact ⟨rfl, hleft, rfl⟩
  | ok reply =>
      have hanswer : ((perform (.awaitQuery id)).eval (alone x) w₁).1 = .ok reply := hquery
      rw [Prog.eval_bind_ok hanswer]
      exact ⟨rfl, hleft, rfl⟩

omit hhttp hfree in
/-- A transition of one payment leaves the rows of the others. -/
theorem setState_elsewhere (R : Runtime) {id id' : ℕ} (hne : id' ≠ id) (t : Transition) :
    ((setState R id t.target t.reference t.detail true).eval (alone x) w).2.row? id' =
      w.row? id' := by
  refine Prog.Only.eval_frame (A := fun op => ¬ op.WritesRow id') (f := fun w => w.row? id')
    (fun w op hop => (alone_rowOracle x id').frame w op hop) ?_ w
  refine setState_only R id (fun h => h.elim) (fun _ _ _ h => hne h.symm) (fun op hop h => ?_) _ _ _ _
  cases op <;> first | exact hop.elim | exact h.elim

/-- Alone, the pass for one payment raises on the answers it cannot use, and otherwise counts the
payment and moves its row alone. -/
theorem resolveOne_alone (R : Runtime) {id : ℕ} {r : Transaction} (hr : w.row? id = some r)
    (hstate : r.state = .unknown) (counts : Resolved) :
    (passOn (x.query id) = none ∧
      ∃ e, ((resolveOne R id counts).eval (alone x) w).1 = .error e) ∨
    ∃ t, passOn (x.query id) = some t ∧
      ((resolveOne R id counts).eval (alone x) w).1 = .ok (counts.add t) ∧
      ((resolveOne R id counts).eval (alone x) w).2.ChainFree ∧
      ∀ id', ((resolveOne R id counts).eval (alone x) w).2.row? id' =
        if id' = id then some (rowAfter t r) else w.row? id' := by
  obtain ⟨hanswer, hleft, hsame⟩ := queryCharge_alone x hhttp hfree id
  rw [resolveOne, Prog.eval_bind_ok hanswer]
  generalize ((queryCharge id).eval (alone x) w).2 = w₁ at hleft hsame ⊢
  have hrows : ∀ id', w₁.row? id' = w.row? id' := fun id' => by
    rw [World.row?, World.row?, hsame]
  have hr₁ : w₁.row? id = some r := (hrows id).trans hr
  -- a payment that is left alone
  have hkept : ∀ id', w₁.row? id' = if id' = id then some r else w.row? id' := by
    intro id'
    by_cases hid : id' = id
    · rw [if_pos hid, hid, hr₁]
    · rw [if_neg hid, hrows]
  cases hquery : x.query id with
  | error e => exact .inr ⟨none, rfl, rfl, hleft, hkept⟩
  | ok reply =>
      simp only [Except.toOption, resolveReply_eq, passOn]
      cases hread : resolution reply with
      | error e => exact .inl ⟨rfl, e, rfl⟩
      | ok t =>
          cases t with
          | none => exact .inr ⟨none, rfl, rfl, hleft, hkept⟩
          | some t =>
              have hvalid := resolution_valid hread hstate
              simp only [Prog.eval_bind_pure]
              cases haccepted : t.accepted with
              | false =>
                  obtain ⟨-, herror⟩ :=
                    (alone_rowOracle x id).setState_refused R hr₁ hvalid haccepted
                  rw [herror]
                  exact .inl ⟨rfl, .dataError, rfl⟩
              | true =>
                  obtain ⟨hok, hfree'⟩ := setState_alone x R hleft hr₁ hvalid haccepted
                  rw [hok]
                  refine .inr ⟨some t, rfl, rfl, hfree', fun id' => ?_⟩
                  by_cases hid : id' = id
                  · rw [if_pos hid, hid]
                    exact ((alone_rowOracle x id).setState_accepted R hr₁ hvalid haccepted).1
                  · rw [if_neg hid]
                    exact (setState_elsewhere x R hid t).trans (hrows id')

/-- What a pass leaves of a row: the row after its answer when it is pending. -/
def passRow (x : Reactions) (pending : List ℕ) (id : ℕ) (r : Transaction) : Transaction :=
  if id ∈ pending then rowAfter ((passOn (x.query id)).getD none) r else r

/-- Alone, a pass over distinct unknown payments raises when one of the answers is one it cannot use,
and otherwise counts every payment and moves each row by its own answer. -/
theorem reconcilePending_alone (R : Runtime) (pending : List (ℕ × String))
    (hdistinct : (pending.map Prod.fst).Nodup)
    (hpending : ∀ p ∈ pending, ∃ r, w.row? p.1 = some r ∧ r.state = .unknown) (counts : Resolved) :
    ((∃ p ∈ pending, passOn (x.query p.1) = none) ∧
      ∃ e, ((reconcilePending R pending counts).eval (alone x) w).1 = .error e) ∨
    (∀ p ∈ pending, passOn (x.query p.1) ≠ none) ∧
      (∃ counts', ((reconcilePending R pending counts).eval (alone x) w).1 = .ok counts' ∧
        Resolved.total counts' = Resolved.total counts + pending.length) ∧
      ∀ id, ((reconcilePending R pending counts).eval (alone x) w).2.row? id =
        (w.row? id).map (passRow x (pending.map Prod.fst) id) := by
  induction pending generalizing w counts with
  | nil =>
      refine .inr ⟨fun p hp => absurd hp List.not_mem_nil, ⟨counts, rfl, rfl⟩, fun id => ?_⟩
      exact (Option.map_id' (x := w.row? id)).symm
  | cons p pending ih =>
      obtain ⟨r, hr, hstate⟩ := hpending p List.mem_cons_self
      obtain ⟨hnot, hdistinct'⟩ := List.nodup_cons.1 hdistinct
      rw [reconcilePending_cons]
      rcases resolveOne_alone x hhttp hfree R hr hstate counts with
        ⟨hnone, e, herror⟩ | ⟨t, ht, hok, hfree', hrows⟩
      · exact .inl ⟨⟨p, List.mem_cons_self, hnone⟩, e, by rw [Prog.eval_bind_error herror]⟩
      · rw [Prog.eval_bind_ok hok]
        generalize ((resolveOne R p.1 counts).eval (alone x) w).2 = w₁ at hfree' hrows ⊢
        have hpending' : ∀ q ∈ pending, ∃ r, w₁.row? q.1 = some r ∧ r.state = .unknown := by
          intro q hq
          have hne : q.1 ≠ p.1 := fun heq => hnot (heq ▸ List.mem_map_of_mem hq)
          rw [hrows, if_neg hne]
          exact hpending q (List.mem_cons_of_mem _ hq)
        rcases ih hfree' hdistinct' hpending' (counts.add t) with
          ⟨⟨q, hq, hnone⟩, herror⟩ | ⟨hall, ⟨counts', hcounts, htotal⟩, hrows'⟩
        · exact .inl ⟨⟨q, List.mem_cons_of_mem _ hq, hnone⟩, herror⟩
        · refine .inr ⟨?_, ⟨counts', hcounts, ?_⟩, fun id => ?_⟩
          · intro q hq
            rcases List.mem_cons.1 hq with rfl | hq
            · rw [ht]
              exact Option.some_ne_none t
            · exact hall q hq
          · rw [htotal, total_add, List.length_cons]
            omega
          · rw [hrows', hrows]
            by_cases hid : id = p.1
            · subst hid
              rw [if_pos rfl, hr, Option.map_some, Option.map_some, passRow, passRow,
                if_neg hnot, List.map_cons, if_pos List.mem_cons_self, ht]
              rfl
            · rw [if_neg hid]
              congr 1
              funext r
              simp only [passRow, List.map_cons, List.mem_cons, hid, false_or]

end Alone

/-! ## Complete reconciliation -/

/-- The state a payment belongs in after the answer of the provider. -/
def expected : Except Exn ProviderReply → PaymentState
  | .error _ => .unknown
  | .ok reply =>
      if reply.statusCode = 404 then .failed
      else match isSuccess reply.statusCode, reply.fields? with
        | true, some fields =>
            if statusIn ["confirmed"] fields then .confirmed
            else if statusIn ["failed", "declined"] fields then .failed
            else .unknown
        | _, _ => .unknown

/-- The unknown payments. -/
def unknowns (w : World) : List Transaction :=
  w.transactions.filter fun r => decide (r.state = .unknown)

/-- A pass resolves every unknown payment by its own answer, leaves the others, counts every unknown
payment and sends no charge. -/
structure Reconciled (x : Reactions) (R : Runtime) (maxAgeMinutes : ℕ) (w : World) : Prop where
  resolved : ∀ r ∈ unknowns w, stateAfter (fun w => w.row? r.paymentAuthorizationId)
    ((reconcileUnknown R maxAgeMinutes).eval (alone x) w) =
      some (expected (x.query r.paymentAuthorizationId))
  others : ∀ r ∈ w.transactions, r.state ≠ .unknown →
    ((reconcileUnknown R maxAgeMinutes).eval (alone x) w).2.row? r.paymentAuthorizationId = some r
  counted : ∃ counts, ((reconcileUnknown R maxAgeMinutes).eval (alone x) w).1 = .ok counts ∧
    Resolved.total counts = (unknowns w).length
  silent : ∀ token body, .sendCharge token body ∉
    (reconcileUnknown R maxAgeMinutes).performed (alone x) w

/-- An answer a pass neither raises on nor misreads. -/
def Usable : Except Exn ProviderReply → Prop
  | .error _ => True
  | .ok reply => reply.statusCode = 404 ∨ 400 ≤ reply.statusCode ∨
      ∃ fields, reply.fields? = some fields ∧
        (hashableIn ["failed", "declined"] (fieldOf "status" fields)).isOk = true ∧
        (statusIn ["confirmed"] fields = true →
          storableReference (some (fieldOf "provider_reference" fields)) = true) ∧
        (isSuccess reply.statusCode = false →
          statusIn ["confirmed", "failed", "declined"] fields = false)

/-- The state of an unknown payment after a pass made a transition on it, or none. -/
def stateOn (t : Option Transition) : PaymentState := t.elim .unknown Transition.target

theorem eq_str_of_isText {text : String} {j : Json} (h : Json.isText text j = true) :
    j = .str text := by
  cases j with
  | str s => rw [of_decide_eq_true h]
  | _ => cases h

/-- A list or an object has no hash; every text has one. -/
theorem hashable_of_isText {text : String} {status : Json} (h : Json.isText text status = true) :
    (hashableIn ["failed", "declined"] status).isOk = true := by
  rw [eq_str_of_isText h]
  rfl

/-- What a pass does with a reply below 400 that is an object. -/
theorem passOn_body {reply : ProviderReply} {fields : List (String × Json)}
    (hcode : ¬ 400 ≤ reply.statusCode) (hfields : reply.fields? = some fields) :
    passOn (.ok reply) =
      if statusIn ["confirmed"] fields then
        if storableReference (some (fieldOf "provider_reference" fields)) then
          some (some ⟨.confirmed, some (fieldOf "provider_reference" fields),
            some "resolved by reconciliation"⟩)
        else none
      else if statusIn ["failed", "declined"] fields then
        some (some ⟨.failed, none, some "resolved by reconciliation"⟩)
      else if (hashableIn ["failed", "declined"] (fieldOf "status" fields)).isOk then some none
      else none := by
  have hfound : ¬ reply.statusCode = 404 := by omega
  simp only [passOn, resolution, if_neg hfound, if_neg hcode, hfields, resolveBody, statusIn,
    List.any_cons, List.any_nil, Bool.or_false]
  by_cases hconfirmed : Json.isText "confirmed" (fieldOf "status" fields) = true
  · have haccepted : ∀ reference, Transition.accepted ⟨.confirmed, reference,
        some "resolved by reconciliation"⟩ = storableReference reference := fun _ => Bool.and_true _
    simp only [if_pos hconfirmed, haccepted]
  · simp only [if_neg hconfirmed, hashableIn_refusal]
    by_cases hrefused : (Json.isText "failed" (fieldOf "status" fields) ||
        Json.isText "declined" (fieldOf "status" fields)) = true
    · have haccepted : Transition.accepted ⟨.failed, none, some "resolved by reconciliation"⟩ =
          true := by decide
      simp only [if_pos hrefused, Except.map, if_true, haccepted]
    · simp only [if_neg hrefused]
      cases fieldOf "status" fields <;> rfl

/-- The state a reply below 400 that is an object calls for. -/
theorem expected_body {reply : ProviderReply} {fields : List (String × Json)}
    (hcode : ¬ 400 ≤ reply.statusCode) (hfields : reply.fields? = some fields) :
    expected (.ok reply) =
      if isSuccess reply.statusCode then
        if statusIn ["confirmed"] fields then .confirmed
        else if statusIn ["failed", "declined"] fields then .failed
        else .unknown
      else .unknown := by
  have hfound : ¬ reply.statusCode = 404 := by omega
  simp only [expected, if_neg hfound, hfields]
  cases isSuccess reply.statusCode <;> rfl

/-- A body is used as expected when it is hashable where it is looked up, its reference can be stored
and it does not come with a redirect. -/
theorem usable_body_iff {reply : ProviderReply} {fields : List (String × Json)}
    (hcode : ¬ 400 ≤ reply.statusCode) (hfields : reply.fields? = some fields) :
    Usable (.ok reply) ↔ ∃ t, passOn (.ok reply) = some t ∧ stateOn t = expected (.ok reply) := by
  have hfound : ¬ reply.statusCode = 404 := by omega
  have hhash : statusIn ["confirmed", "failed", "declined"] fields = true →
      (hashableIn ["failed", "declined"] (fieldOf "status" fields)).isOk = true := by
    intro h
    obtain ⟨text, -, htext⟩ := List.any_eq_true.1 h
    exact hashable_of_isText htext
  have hany : statusIn ["confirmed", "failed", "declined"] fields =
      (statusIn ["confirmed"] fields || statusIn ["failed", "declined"] fields) := by
    simp only [statusIn, List.any_cons, List.any_nil, Bool.or_false]
  rw [passOn_body hcode hfields, expected_body hcode hfields]
  simp only [Usable, hfound, hcode, false_or, hfields, Option.some.injEq, exists_eq_left', hany]
    at hhash ⊢
  -- what is left is about five truth values
  generalize statusIn ["confirmed"] fields = confirmed at hhash ⊢
  generalize statusIn ["failed", "declined"] fields = refused at hhash ⊢
  generalize (hashableIn ["failed", "declined"] (fieldOf "status" fields)).isOk = hashed at hhash ⊢
  generalize storableReference (some (fieldOf "provider_reference" fields)) = stored
  generalize isSuccess reply.statusCode = success
  cases confirmed <;> cases refused <;> cases hashed <;> cases stored <;> cases success <;>
    simp [stateOn] at hhash ⊢

/-- An answer is usable exactly when the pass does with it what is expected. -/
theorem usable_iff (a : Except Exn ProviderReply) :
    Usable a ↔ ∃ t, passOn a = some t ∧ stateOn t = expected a := by
  cases a with
  | error e => exact iff_of_true trivial ⟨none, rfl, rfl⟩
  | ok reply =>
      by_cases hfound : reply.statusCode = 404
      · refine iff_of_true (.inl hfound)
          ⟨some ⟨.failed, none, some "provider has no record; never charged"⟩, ?_, ?_⟩
        · simp only [passOn, resolution, if_pos hfound]
          exact if_pos (by decide)
        · simp only [expected, if_pos hfound]
          rfl
      by_cases hcode : 400 ≤ reply.statusCode
      · refine iff_of_true (.inr (.inl hcode)) ⟨none, ?_, ?_⟩
        · simp only [passOn, resolution, if_neg hfound, if_pos hcode]
        · have hsuccess : isSuccess reply.statusCode = false :=
            decide_eq_false fun h => by omega
          simp only [expected, if_neg hfound, hsuccess]
          rfl
      cases hfields : reply.fields? with
      | some fields => exact usable_body_iff hcode hfields
      | none =>
          refine iff_of_false ?_ ?_
          · rintro (h | h | ⟨fields, h, -⟩)
            · exact hfound h
            · exact hcode h
            · rw [hfields] at h
              cases h
          · rintro ⟨t, ht, -⟩
            simp only [passOn, resolution, if_neg hfound, if_neg hcode, hfields, reduceCtorEq] at ht

/-- A pass sends no charge. -/
theorem reconcileUnknown_silent (R : Runtime) (maxAgeMinutes : ℕ) :
    (reconcileUnknown R maxAgeMinutes).Only fun op => ∀ token body, op ≠ .sendCharge token body := by
  have happend : ∀ op : Op, op.Appends → ∀ token body, op ≠ .sendCharge token body := by
    intro op hop token body heq
    rw [heq] at hop
    exact hop
  have hset : ∀ id (t : Transition), (setState R id t.target t.reference t.detail true).Only
      fun op => ∀ token body, op ≠ .sendCharge token body := fun id t =>
    setState_only R id (by simp) (by simp) happend _ _ _ _
  have hone : ∀ id counts, (resolveOne R id counts).Only
      fun op => ∀ token body, op ≠ .sendCharge token body := by
    intro id counts
    refine Prog.Only.bind ?_ fun reply => ?_
    · refine Prog.Only.recover ?_ fun e => by split <;> trivial
      refine Prog.Only.bind ((Prog.only_perform _ _).2 (by simp)) fun _ => ?_
      exact Prog.Only.bind ((Prog.only_perform _ _).2 (by simp)) fun _ => trivial
    · cases reply with
      | none => trivial
      | some reply =>
          simp only [resolveReply_eq]
          split
          · exact Prog.Only.bind (hset _ _) fun _ => trivial
          · trivial
          · trivial
  refine Prog.Only.bind ((Prog.only_perform _ _).2 (by simp)) fun now => ?_
  refine Prog.Only.bind ((Prog.only_perform _ _).2 (by simp)) fun pending => ?_
  suffices hloop : ∀ counts, (reconcilePending R pending counts).Only
      fun op => ∀ token body, op ≠ .sendCharge token body from hloop {}
  induction pending with
  | nil => exact fun _ => trivial
  | cons p pending ih =>
      intro counts
      rw [reconcilePending_cons]
      exact Prog.Only.bind (hone _ _) ih

/-- The payments a pass selects. -/
def pendingOf (maxAgeMinutes : ℕ) (w : World) : List (ℕ × String) :=
  (w.transactions.filter fun r => decide (r.state = .unknown) &&
    decide (w.clock - seconds (60 * maxAgeMinutes) ≤ r.createdAt)).map fun r =>
      (r.paymentAuthorizationId, r.idempotencyKey)

theorem mem_pendingOf {maxAgeMinutes : ℕ} {w : World} {r : Transaction} (hr : r ∈ w.transactions)
    (hstate : r.state = .unknown) (hrecent : w.clock - seconds (60 * maxAgeMinutes) ≤ r.createdAt) :
    (r.paymentAuthorizationId, r.idempotencyKey) ∈ pendingOf maxAgeMinutes w :=
  List.mem_map_of_mem (List.mem_filter.2 ⟨hr, by simp [hstate, hrecent]⟩)

theorem of_mem_pendingOf {maxAgeMinutes : ℕ} {w : World} {p : ℕ × String}
    (hp : p ∈ pendingOf maxAgeMinutes w) : ∃ r ∈ unknowns w, p.1 = r.paymentAuthorizationId ∧
      w.clock - seconds (60 * maxAgeMinutes) ≤ r.createdAt := by
  obtain ⟨r, hr, rfl⟩ := List.mem_map.1 hp
  obtain ⟨hmem, hcond⟩ := List.mem_filter.1 hr
  simp only [Bool.and_eq_true, decide_eq_true_eq] at hcond
  exact ⟨r, List.mem_filter.2 ⟨hmem, decide_eq_true hcond.1⟩, rfl, hcond.2⟩

section Pass

variable (x : Reactions) (hhttp : ∀ id e, x.query id = .error e → e.isHttpError = true)
  (R : Runtime) (maxAgeMinutes : ℕ) {w : World} (hkeys : w.PrimaryKey) (hfree : w.ChainFree)

theorem mem_unknowns {r : Transaction} :
    r ∈ unknowns w ↔ r ∈ w.transactions ∧ r.state = .unknown := by
  rw [unknowns, List.mem_filter, decide_eq_true_eq]

include hhttp hkeys hfree

/-- What a pass does: it raises when an answer of a selected payment cannot be used, and otherwise
counts the selected payments and moves each by its own answer. -/
theorem reconcileUnknown_alone :
    ((∃ p ∈ pendingOf maxAgeMinutes w, passOn (x.query p.1) = none) ∧
      ∃ e, ((reconcileUnknown R maxAgeMinutes).eval (alone x) w).1 = .error e) ∨
    (∀ p ∈ pendingOf maxAgeMinutes w, passOn (x.query p.1) ≠ none) ∧
      (∃ counts, ((reconcileUnknown R maxAgeMinutes).eval (alone x) w).1 = .ok counts ∧
        Resolved.total counts = (pendingOf maxAgeMinutes w).length) ∧
      ∀ id, ((reconcileUnknown R maxAgeMinutes).eval (alone x) w).2.row? id =
        (w.row? id).map (passRow x ((pendingOf maxAgeMinutes w).map Prod.fst) id) := by
  have hread : ((perform .now).eval (alone x) w).1 = .ok w.clock := rfl
  have hrows : ((perform .now).eval (alone x) w).2.transactions = w.transactions := rfl
  have hfree₁ : ((perform .now).eval (alone x) w).2.ChainFree :=
    hfree.later rfl (Nat.le_add_right _ _)
  rw [reconcileUnknown, Prog.eval_bind_ok hread]
  generalize ((perform .now).eval (alone x) w).2 = w₁ at hrows hfree₁ ⊢
  have hselect : ((perform (.selectUnknown (w.clock - seconds (60 * maxAgeMinutes)))).eval (alone x)
      w₁).1 = .ok (pendingOf maxAgeMinutes w) := by
    rw [pendingOf, ← hrows]
    rfl
  have hrows₂ : ((perform (.selectUnknown (w.clock - seconds (60 * maxAgeMinutes)))).eval (alone x)
      w₁).2.transactions = w.transactions := hrows
  have hfree₂ : ((perform (.selectUnknown (w.clock - seconds (60 * maxAgeMinutes)))).eval (alone x)
      w₁).2.ChainFree := hfree₁.later rfl (Nat.le_add_right _ _)
  rw [Prog.eval_bind_ok hselect]
  generalize ((perform (.selectUnknown _)).eval (alone x) w₁).2 = w₂ at hrows₂ hfree₂ ⊢
  have hrow : ∀ id, w₂.row? id = w.row? id := fun id => by rw [World.row?, World.row?, hrows₂]
  have hdistinct : ((pendingOf maxAgeMinutes w).map Prod.fst).Nodup := by
    rw [pendingOf, List.map_map]
    exact hkeys.sublist (List.filter_sublist.map _)
  have hpending : ∀ p ∈ pendingOf maxAgeMinutes w, ∃ r, w₂.row? p.1 = some r ∧
      r.state = .unknown := by
    intro p hp
    obtain ⟨r, hr, hid, -⟩ := of_mem_pendingOf hp
    obtain ⟨hmem, hstate⟩ := mem_unknowns.1 hr
    exact ⟨r, by rw [hrow, hid, hkeys.row? hmem], hstate⟩
  rcases reconcilePending_alone x hhttp hfree₂ R _ hdistinct hpending {} with
    hraised | ⟨hall, ⟨counts, hcounts, htotal⟩, hmoved⟩
  · exact .inl hraised
  · refine .inr ⟨hall, ⟨counts, hcounts, ?_⟩, fun id => ?_⟩
    · rw [htotal]
      exact Nat.zero_add _
    · rw [hmoved, hrow]

omit hhttp hkeys hfree in
/-- A pass selects as many payments as there are unknown ones exactly when all of them are recent. -/
theorem length_pendingOf_iff : (pendingOf maxAgeMinutes w).length = (unknowns w).length ↔
    ∀ r ∈ unknowns w, w.clock - seconds (60 * maxAgeMinutes) ≤ r.createdAt := by
  have hfilter : (pendingOf maxAgeMinutes w).length = ((unknowns w).filter fun r =>
      decide (w.clock - seconds (60 * maxAgeMinutes) ≤ r.createdAt)).length := by
    rw [pendingOf, List.length_map, unknowns, List.filter_filter]
    congr 2
    funext r
    exact Bool.and_comm _ _
  rw [hfilter, List.length_filter_eq_length_iff]
  simp only [decide_eq_true_eq]

omit hhttp hfree in
/-- The row of an unknown payment that was selected, after the pass. -/
theorem stateAfter_pass {result : Except Exn Resolved × World}
    (hmoved : ∀ id, result.2.row? id =
      (w.row? id).map (passRow x ((pendingOf maxAgeMinutes w).map Prod.fst) id))
    {r : Transaction} (hr : r ∈ unknowns w)
    (hrecent : w.clock - seconds (60 * maxAgeMinutes) ≤ r.createdAt) {t : Option Transition}
    (ht : passOn (x.query r.paymentAuthorizationId) = some t) :
    stateAfter (fun w => w.row? r.paymentAuthorizationId) result = some (stateOn t) := by
  obtain ⟨hmem, hstate⟩ := mem_unknowns.1 hr
  have hselected : r.paymentAuthorizationId ∈ (pendingOf maxAgeMinutes w).map Prod.fst :=
    List.mem_map_of_mem (f := Prod.fst) (mem_pendingOf hmem hstate hrecent)
  simp only [stateAfter, hmoved, hkeys.row? hmem, Option.map_some, passRow, if_pos hselected, ht,
    Option.getD_some, Option.some.injEq]
  cases t with
  | none => exact hstate
  | some t => rfl

/-- A pass that runs alone does what it is for exactly when every unknown payment is recent enough to
be selected and its answer is usable. -/
theorem reconciled_iff : Reconciled x R maxAgeMinutes w ↔ ∀ r ∈ unknowns w,
    w.clock - seconds (60 * maxAgeMinutes) ≤ r.createdAt ∧
      Usable (x.query r.paymentAuthorizationId) := by
  rcases reconcileUnknown_alone x hhttp R maxAgeMinutes hkeys hfree with
    ⟨⟨p, hp, hnone⟩, e, herror⟩ | ⟨hall, ⟨counts, hcounts, htotal⟩, hmoved⟩
  · -- the pass raised: it returned no counts, and the answer it raised on is not usable
    refine iff_of_false (fun h => ?_) fun h => ?_
    · obtain ⟨counts, hcounts, -⟩ := h.counted
      rw [herror] at hcounts
      cases hcounts
    · obtain ⟨r, hr, hid, -⟩ := of_mem_pendingOf hp
      obtain ⟨t, ht, -⟩ := (usable_iff _).1 (h r hr).2
      rw [hid, ht] at hnone
      cases hnone
  · constructor
    · intro h r hr
      obtain ⟨counts', hcounts', hcounted⟩ := h.counted
      rw [hcounts, Except.ok.injEq] at hcounts'
      subst hcounts'
      have hrecent := (length_pendingOf_iff maxAgeMinutes).1 (htotal.symm.trans hcounted) r hr
      refine ⟨hrecent, (usable_iff _).2 ?_⟩
      obtain ⟨hmem, hstate⟩ := mem_unknowns.1 hr
      obtain ⟨t, ht⟩ := Option.ne_none_iff_exists'.1 (hall _ (mem_pendingOf hmem hstate hrecent))
      have hafter := stateAfter_pass x maxAgeMinutes hkeys hmoved hr hrecent ht
      rw [h.resolved r hr, Option.some.injEq] at hafter
      exact ⟨t, ht, hafter.symm⟩
    · intro h
      refine ⟨fun r hr => ?_, fun r hmem hstate => ?_, ⟨counts, hcounts, ?_⟩, ?_⟩
      · obtain ⟨t, ht, hexpected⟩ := (usable_iff _).1 (h r hr).2
        rw [stateAfter_pass x maxAgeMinutes hkeys hmoved hr (h r hr).1 ht, hexpected]
      · have hselected : r.paymentAuthorizationId ∉ (pendingOf maxAgeMinutes w).map Prod.fst := by
          intro hin
          obtain ⟨p, hp, hid⟩ := List.mem_map.1 hin
          obtain ⟨r', hr', hid', -⟩ := of_mem_pendingOf hp
          obtain ⟨hmem', hstate'⟩ := mem_unknowns.1 hr'
          have hsame := (hkeys.row? hmem).symm.trans
            ((congrArg w.row? (hid.symm.trans hid')).trans (hkeys.row? hmem'))
          rw [Option.some.injEq] at hsame
          exact hstate (hsame ▸ hstate')
        rw [hmoved, hkeys.row? hmem, Option.map_some, passRow, if_neg hselected]
      · rw [htotal, length_pendingOf_iff]
        exact fun r hr => (h r hr).1
      · exact fun token body hmem => (reconcileUnknown_silent R maxAgeMinutes).performed _ hmem _ _ rfl

end Pass

/-- A world with two unknown payments. -/
def twoUnknown : World where
  clock := seconds 1000000
  transactions := [Scenario.paymentRow 1 .unknown (seconds 1000000),
    Scenario.paymentRow 2 .unknown (seconds 1000000)]

/-- The provider confirms the second payment, and answers for the first one what is given. -/
def firstAnswers (reply : ProviderReply) : Reactions where
  charge _ := .error (.httpTransport "")
  query id := .ok (if id = 1 then reply else confirming)
  elapse _ _ := 0

theorem reconciled_confirming : Reconciled (firstAnswers confirming) Scenario.runtime 60 twoUnknown := by
  have hkeys : twoUnknown.PrimaryKey := by unfold World.PrimaryKey; decide
  have hfree : twoUnknown.ChainFree := by unfold World.ChainFree; rfl
  refine (reconciled_iff (firstAnswers confirming) ?_ Scenario.runtime 60 hkeys hfree).2
    fun r hr => ?_
  · intro id e h
    cases h
  · obtain ⟨hmem, -⟩ := mem_unknowns.1 hr
    simp only [twoUnknown, List.mem_cons, List.not_mem_nil, or_false] at hmem
    rcases hmem with rfl | rfl <;>
      exact ⟨by decide, .inr (.inr ⟨_, rfl, by decide, by decide, by decide⟩)⟩

/-- A body that is no JSON keeps a pass from the payments after it. -/
theorem unparsed_body_blocks : ¬ Reconciled (firstAnswers unparsed) Scenario.runtime 60
    twoUnknown := by
  intro h
  obtain ⟨counts, hcounts, -⟩ := h.counted
  cases hcounts

end AgentPay.Properties
