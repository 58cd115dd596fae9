import AgentPay.Properties.Statements
import AgentPay.Properties.Submission

/-!
# What a request owes its caller once it signed

The handler of unhandled exceptions answers a payment request with a fail-closed body, and the
handler of `TimeoutError` answers it with a block. Both are wrapped around the whole pipeline, so an
exception that is raised after the credential was signed is answered in the same way as one before.
`Trouble` lists the answers the pipeline cannot go on from, and `Late` says that the request came to
an end by one of them after its signature. A request that signed a credential or sent a charge was
answered with its own `ALLOW`, or it came to an end late (`moved_only_by_allow`).
-/

set_option autoImplicit false

namespace AgentPay.Properties

open AgentPay.Library AgentPay.Library.Machine AgentPay.Gateway
open AgentPay.Library.Prog (Gives)

/-! ## Trouble -/

/-- The state the request committed last; its row is inserted as `CREATED`. -/
def lastCommitted : Memory → PaymentState
  | [] => .created
  | ⟨.commitState _ target _ _, .ok _⟩ :: _ => target
  | _ :: s => lastCommitted s

/-- A refused attempt to take the lock of the audit chain under a token. -/
def refuses (token : ℕ) : (op : Op) × Except Exn op.Val → Bool
  | ⟨.setNx key token' _, .ok false⟩ =>
      decide (key = lockKey "audit_chain") && decide (token' = token)
  | _ => false

/-- The answers the pipeline cannot go on from, given what was seen before: a failed operation, the
last refused attempt on the audit chain, a row that is not in the state the request committed last,
and a body of the provider that cannot be read. -/
inductive Trouble (s : Memory) : (op : Op) × Except Exn op.Val → Prop
  | failed (op : Op) (e : Exn) : Trouble s ⟨op, .error e⟩
  | refused (token ttl : ℕ) (h : lockAttempts ≤ s.countP (refuses token) + 1) :
      Trouble s ⟨.setNx (lockKey "audit_chain") token ttl, .ok false⟩
  | moved (id : ℕ) (row : Option Transaction)
      (h : row.map Transaction.state ≠ some (lastCommitted s)) :
      Trouble s ⟨.getTransaction id, .ok row⟩
  | unreadable (id : ℕ) (reply : ProviderReply) (hstatus : reply.statusCode < 400)
      (hbody : reply.fields? = none) : Trouble s ⟨.awaitCharge id, .ok reply⟩

/-- What a request still does when it ends by an exception: it releases its locks. -/
def Aftermath : Op → Prop
  | .deleteIfValue .. | .sleep | .now => True
  | _ => False

/-- The request came to an end by trouble after it signed a credential. -/
def Late (s : Memory) : Prop :=
  ∃ last older, Trouble older last ∧ Signed (last :: older) ∧ Extends Aftermath (last :: older) s

/-- The request came to an end late, or it signed nothing. -/
def Spoiled (s : Memory) : Prop := Signed s → Late s

theorem Late.extends {s s' : Memory} (hl : Late s) (h : Extends Aftermath s s') : Late s' := by
  obtain ⟨last, older, htrouble, hsigned, hextends⟩ := hl
  exact ⟨last, older, htrouble, hsigned, hextends.trans h⟩

theorem Spoiled.extends {s s' : Memory} (hs : Spoiled s) (h : Extends Aftermath s s') :
    Spoiled s' := fun hsigned => (hs (hsigned.of_extends (fun _ => id) h)).extends h

theorem spoiled_of_trouble {s : Memory} {last : (op : Op) × Except Exn op.Val}
    (h : Trouble s last) : Spoiled (last :: s) := fun hsigned =>
  ⟨last, s, h, hsigned, Extends.refl _ _⟩

theorem spoiled_of_unsigned {s : Memory} (h : ¬ Signed s) : Spoiled s := fun hsigned =>
  absurd hsigned h

/-- An operation that neither commits a state nor signs a credential. -/
def Steady : Op → Prop
  | .commitState .. | .signAuthorization _ => False
  | _ => True

theorem steady_of_calm {op : Op} (h : Calm op) : Steady op := by
  cases op <;> first | exact h.elim | trivial

theorem steady_of_quiet {op : Op} (h : Quiet op) : Steady op := by
  cases op <;> first | exact h.elim | trivial

theorem lastCommitted_of_extends {s s' : Memory} (h : Extends Steady s s') :
    lastCommitted s' = lastCommitted s := by
  obtain ⟨new, rfl, hnew⟩ := h
  induction new with
  | nil => rfl
  | cons e new ih =>
      have hold := ih fun e' he' => hnew e' (List.mem_cons_of_mem _ he')
      obtain ⟨op, answer⟩ := e
      have hop : Steady op := hnew _ List.mem_cons_self
      cases op
      case commitState id target reference detail => exact hop.elim
      all_goals exact hold

/-- The request has neither signed a credential nor committed a state. -/
structure Idle (s : Memory) : Prop where
  unsigned : ¬ Signed s
  created : lastCommitted s = .created

theorem Idle.extends {s s' : Memory} (hs : Idle s) (h : Extends Steady s s') : Idle s' where
  unsigned hsigned := hs.unsigned (hsigned.of_extends (fun _ => id) h)
  created := (lastCommitted_of_extends h).trans hs.created

/-! ## Rules -/

/-- The watch that permits everything. -/
abbrev viewing : Protocol Op Op.Val Exn Memory := watching fun _ _ => True

section Rules

variable {α β : Type} {s : Memory}

theorem follows_viewing (p : Py α) (s : Memory) : p.Follows viewing s fun _ _ => True := by
  induction p generalizing s with
  | ret r => trivial
  | call op next ih => exact ⟨trivial, fun answer => ih answer _⟩

/-- One operation; when it fails, that is trouble. -/
theorem perform_spoils {op : Op} {f : op.Val → Py β} {Q : β → Memory → Prop}
    (hf : ∀ a, (f a).Follows viewing (⟨op, .ok a⟩ :: s) (Gives Q Spoiled)) :
    (perform op >>= f).Follows viewing s (Gives Q Spoiled) :=
  Prog.Follows.perform (P := viewing) trivial hf fun e => spoiled_of_trouble (.failed op e)

/-- A program that signs nothing, in front of another one, while nothing is signed. -/
theorem unsigned_spoils {A : Op → Prop} {p : Py α} {f : α → Py β} {Q : β → Memory → Prop}
    (hp : p.Only A) (hA : ∀ claims, ¬ A (.signAuthorization claims)) (hs : ¬ Signed s)
    (hf : ∀ a s', Extends A s s' → ¬ Signed s' →
      (f a).Follows viewing s' (Gives Q Spoiled)) :
    (p >>= f).Follows viewing s (Gives Q Spoiled) := by
  have hkept : ∀ {s'}, Extends A s s' → ¬ Signed s' := fun h hsigned => hs (hsigned.of_extends hA h)
  exact (hp.extends (fun _ _ _ => trivial) s).bind (fun a s' h => hf a s' h (hkept h))
    fun e s' h => spoiled_of_unsigned (hkept h)

/-- A steady program in front of another one, while the request is idle. -/
theorem idle_spoils {A : Op → Prop} {p : Py α} {f : α → Py β} {Q : β → Memory → Prop}
    (hp : p.Only A) (hA : ∀ op, A op → Steady op) (hs : Idle s)
    (hf : ∀ a s', Idle s' → (f a).Follows viewing s' (Gives Q Spoiled)) :
    (p >>= f).Follows viewing s (Gives Q Spoiled) :=
  unsigned_spoils (hp.mono hA) (fun _ => id) hs.unsigned fun a s' h _ => hf a s' (hs.extends h)

/-- Whatever exception the program raises is trouble. -/
def Blames (p : Py α) : Prop := ∀ s, p.Follows viewing s (Gives (fun _ _ => True) Spoiled)

theorem blames_pure (a : α) : Blames (pure a : Py α) := fun _ => trivial

theorem blames_perform (op : Op) : Blames (perform op) := fun s =>
  ⟨trivial, fun answer => by
    cases answer with
    | ok a => trivial
    | error e => exact spoiled_of_trouble (.failed op e)⟩

theorem Blames.bind {p : Py α} {f : α → Py β} (hp : Blames p) (hf : ∀ a, Blames (f a)) :
    Blames (p >>= f) := fun s => (hp s).bind_gives fun a s' _ => hf a s'

/-- A program in front of another one, with what it leaves in the memory. -/
theorem Blames.before {A : Op → Prop} {p : Py α} {f : α → Py β} {Q : β → Memory → Prop}
    (hp : Blames p) (ho : p.Only A) (hf : ∀ a s', Extends A s s' →
      (f a).Follows viewing s' (Gives Q Spoiled)) :
    (p >>= f).Follows viewing s (Gives Q Spoiled) :=
  ((hp s).and (ho.extends (fun _ _ _ => trivial) s)).bind (fun a s' h => hf a s' h.2)
    fun _ _ h => h.1

/-- The release of a lock at the end, whatever happened. -/
theorem release_spoils {p : Py α} {name : String} {token : ℕ} {Q : α → Memory → Prop}
    (hQ : ∀ a s s', Q a s → Extends Aftermath s s' → Q a s')
    (hp : p.Follows viewing s (Gives Q Spoiled)) :
    (p.ensure (release name token)).Follows viewing s (Gives Q Spoiled) := by
  refine (Prog.follows_ensure _ _ _ _).2 (hp.mono fun r s' hr => ?_)
  refine Prog.Follows.perform (P := viewing) trivial (fun deleted => ?_) fun e =>
    spoiled_of_trouble (.failed _ e)
  have hrelease : Aftermath (.deleteIfValue (lockKey name) token) := trivial
  have h : Extends Aftermath s' (⟨.deleteIfValue (lockKey name) token, .ok deleted⟩ :: s') :=
    Extends.cons hrelease _ s'
  cases r with
  | ok a => exact hQ a s' _ hr h
  | error e => exact Spoiled.extends hr h

end Rules

/-! ## The audit log -/

/-- An append gets the lock of the chain, or the last attempt was refused. -/
theorem acquire_spoils (token ttl : ℕ) {n : ℕ} {s : Memory} (hn : n = 0 → Spoiled s)
    (hleft : lockAttempts ≤ s.countP (refuses token) + n) :
    (acquire "audit_chain" token ttl n).Follows viewing s (Gives (fun _ _ => True) Spoiled) := by
  induction n generalizing s with
  | zero => exact hn rfl
  | succ n ih =>
      refine perform_spoils fun taken => ?_
      cases taken with
      | true => trivial
      | false =>
          refine perform_spoils fun _ => ih (fun hlast => ?_) ?_
          · subst hlast
            have hsleep : Aftermath .sleep := trivial
            exact (spoiled_of_trouble (.refused token ttl hleft)).extends (Extends.cons hsleep _ _)
          · have hrefused : refuses token ⟨.setNx (lockKey "audit_chain") token ttl, .ok false⟩ =
                true := by simp [refuses]
            rw [List.countP_cons_of_neg (by exact Bool.false_ne_true),
              List.countP_cons_of_pos hrefused]
            omega

theorem blames_recordEvent (R : Runtime) (f : EventFields) : Blames (recordEvent R f) := by
  refine (blames_perform _).bind fun eventId => (blames_perform _).bind fun createdAt => ?_
  refine (blames_perform _).bind fun token => Blames.bind (fun s => ?_) fun _ => fun s => ?_
  · exact acquire_spoils token 15 (fun h => nomatch h) (Nat.le_add_left _ _)
  · refine release_spoils (fun _ _ _ _ _ => trivial) ?_
    exact ((blames_perform _).bind fun prev => (blames_perform _).bind fun _ => blames_pure _) s

/-- An append whose failure is swallowed. -/
theorem blames_recordEventSafe (R : Runtime) (f : EventFields) : Blames (recordEventSafe R f) := by
  intro s
  refine (Prog.follows_recover _ _ _ _).2 ?_
  refine ((blames_recordEvent R f).bind (fun _ => blames_pure _) s).mono fun r s' hr => ?_
  cases r with
  | ok recorded => trivial
  | error e =>
      change Prog.Follows viewing (if _ then _ else _) _ _
      split
      · trivial
      · exact hr

/-! ## Authorization and submission -/

section Programs

variable {R : Runtime} {txn : CanonicalTransaction} {s : Memory}

/-- A transition that the state committed last allows is made, or the row was moved. -/
theorem setState_spoils (id : ℕ) {target : PaymentState} (reference : Option Json)
    (detail : Option String) (hvalid : target ∈ validTransitions (lastCommitted s)) :
    (setState R id target reference detail true).Follows viewing s
      (Gives (fun _ s' => lastCommitted s' = target) Spoiled) := by
  refine perform_spoils fun row => ?_
  have hmoved : row.map Transaction.state ≠ some (lastCommitted s) →
      Spoiled (⟨.getTransaction id, .ok row⟩ :: s) := fun h =>
    spoiled_of_trouble (.moved id row h)
  cases row with
  | none => exact hmoved fun h => nomatch h
  | some row =>
      by_cases haccepted : target ∈ validTransitions row.state
      case neg =>
          have hrefused : assertTransition row.state target =
              .error (.invalidTransition row.state target) := if_neg haccepted
          simp only [hrefused]
          refine hmoved fun h => haccepted ?_
          rw [Option.some.inj h]
          exact hvalid
      have hpassed : assertTransition row.state target = .ok () := if_pos haccepted
      simp only [hpassed]
      refine perform_spoils fun _ => ?_
      refine (blames_recordEvent R _).before (only_recordEvent R _) fun _ s' h => ?_
      exact lastCommitted_of_extends (h.mono fun _ => steady_of_quiet)

theorem authorize_spoils (policyVersion : String) (hs : lastCommitted s = .created) :
    (authorize R txn policyVersion).Follows viewing s
      (Gives (fun _ s' => lastCommitted s' = .authorized) Spoiled) := by
  refine Prog.Follows.bind_gives (R := fun _ s' => lastCommitted s' = .created) ?_
    fun token s₁ hs₁ => ?_
  · exact perform_spoils fun time => perform_spoils fun jti => perform_spoils fun _ => hs
  have hstored : Blames (storeToken txn token) := by
    refine (blames_perform _).bind fun row => ?_
    cases row with
    | none => exact blames_pure _
    | some row => exact blames_perform _
  refine hstored.before (only_storeToken txn token) fun _ s₂ h₂ => ?_
  refine (setState_spoils _ none none ?_).bind_gives fun _ s₃ hs₃ => hs₃
  rw [lastCommitted_of_extends (h₂.mono fun _ => steady_of_quiet), hs₁]
  decide

/-- A call to the provider that failed is answered with its detail, or spoils. -/
theorem transportFailure_spoils (op : Op) (e : Exn)
    (hs : lastCommitted (⟨op, .error e⟩ :: s) = .submitted) :
    Prog.Follows viewing (match e.transportDetail? with
      | some detail => pure (.inr detail)
      | none => Prog.throw e : Py (ProviderReply ⊕ String)) (⟨op, .error e⟩ :: s)
      (Gives (fun answer s' => lastCommitted s' = .submitted ∧ ∀ reply, answer = .inl reply →
        ∃ older, s' = ⟨.awaitCharge txn.paymentAuthorizationId, .ok reply⟩ :: older) Spoiled) := by
  cases e.transportDetail? with
  | some detail =>
      -- a failed transport is no reply, and `submit` goes on from it
      refine ⟨hs, ?_⟩
      rintro _ ⟨⟩
  | none => exact spoiled_of_trouble (.failed op e)

/-- A reply is the last thing that was seen. -/
theorem postCharge_spoils (token : IssuedToken) (hs : lastCommitted s = .submitted) :
    (postCharge txn token).Follows viewing s (Gives (fun answer s' =>
      lastCommitted s' = .submitted ∧ ∀ reply, answer = .inl reply → ∃ older,
        s' = ⟨.awaitCharge txn.paymentAuthorizationId, .ok reply⟩ :: older) Spoiled) := by
  refine (Prog.follows_recover _ _ _ _).2 ?_
  refine Prog.Follows.perform (P := viewing) trivial (fun _ => ?_)
    fun e => transportFailure_spoils _ e hs
  refine Prog.Follows.perform (P := viewing) trivial (fun reply => ?_)
    fun e => transportFailure_spoils _ e hs
  refine ⟨hs, fun reply' h => ?_⟩
  cases h
  exact ⟨_, rfl⟩

theorem settleReply_spoils {reply : ProviderReply} {older : Memory}
    (hs : lastCommitted s = .submitted)
    (hseen : s = ⟨.awaitCharge txn.paymentAuthorizationId, .ok reply⟩ :: older) :
    (settleReply R txn reply).Follows viewing s (Gives (fun _ _ => True) Spoiled) := by
  rw [settleReply_eq]
  cases hread : settlement R reply with
  | error e =>
      -- the body of an accepted charge does not parse
      subst hseen
      refine spoiled_of_trouble (.unreadable _ reply ?_ ?_) <;> unfold settlement at hread
      · by_contra hstatus
        rw [if_pos (not_lt.1 hstatus)] at hread
        cases hread
      · split at hread
        · cases hread
        · cases hfields : reply.fields? with
          | none => rfl
          | some fields =>
              rw [hfields] at hread
              cases hread
  | ok t =>
      refine (setState_spoils _ t.reference t.detail ?_).bind_gives fun _ _ _ => trivial
      rw [hs]
      rcases settlement_target R hread with h | h <;> rw [h] <;> decide

theorem submit_spoils (token : IssuedToken) (hs : lastCommitted s = .authorized) :
    (submit R txn token).Follows viewing s (Gives (fun _ _ => True) Spoiled) := by
  refine perform_spoils fun row => ?_
  cases row with
  | none => exact spoiled_of_trouble (.moved _ none fun h => nomatch h)
  | some row =>
      by_cases huses : 1 ≤ row.tokenUses
      · simp only [if_pos huses]
        trivial
      simp only [if_neg huses]
      refine perform_spoils fun _ => ?_
      refine (setState_spoils _ none none ?_).bind_gives fun _ s₁ hs₁ => ?_
      · change _ ∈ validTransitions (lastCommitted s)
        rw [hs]
        decide
      refine (postCharge_spoils token hs₁).bind_gives fun answer s₂ ⟨hs₂, hreply⟩ => ?_
      cases answer with
      | inl reply =>
          obtain ⟨older, hseen⟩ := hreply reply rfl
          exact settleReply_spoils hs₂ hseen
      | inr failure =>
          refine (setState_spoils _ none _ ?_).bind_gives fun _ s₃ hs₃ => ?_
          · rw [hs₂]
            decide
          refine (setState_spoils _ none _ ?_).bind_gives fun _ s₄ _ => trivial
          rw [hs₃]
          decide

/-! ## The answer -/

/-- A request that signed a credential answers with its own `ALLOW`. -/
def Upright (r : DecisionResponse) (s : Memory) : Prop :=
  Signed s → r.replayed = false ∧ r.decision = .allow

theorem Upright.extends {A : Op → Prop} {r : DecisionResponse} {s s' : Memory} (hr : Upright r s)
    (hA : ∀ claims, ¬ A (.signAuthorization claims)) (h : Extends A s s') : Upright r s' :=
  fun hsigned => hr (hsigned.of_extends hA h)

theorem upright_of_unsigned {r : DecisionResponse} {s : Memory} (h : ¬ Signed s) : Upright r s :=
  fun hsigned => absurd hsigned h

/-- Stage 6 signs for an allowed transaction only. -/
theorem finish_spoils {verdict : PDPResult} {response : DecisionResponse} (execute : Bool)
    (hs : Idle s) (hfresh : response.replayed = false)
    (hdecision : response.decision = verdict.decision) :
    (finish R txn verdict response execute).Follows viewing s (Gives Upright Spoiled) := by
  unfold finish
  cases hd : verdict.decision with
  | block =>
      exact unsigned_spoils (aside_setState R _ _ _ _ _) (fun _ => id) hs.unsigned
        fun _ _ _ hunsigned => upright_of_unsigned hunsigned
  | requireApproval =>
      exact unsigned_spoils (aside_createRequest txn _) (fun _ => id) hs.unsigned
        fun _ _ _ hunsigned => upright_of_unsigned hunsigned
  | allow =>
      have hallow : response.decision = .allow := hdecision.trans hd
      refine idle_spoils (only_zaddWindow _ _) (fun _ => steady_of_quiet) hs fun _ s₁ hs₁ => ?_
      refine (authorize_spoils verdict.policyVersion hs₁.created).bind_gives fun token s₂ hs₂ => ?_
      simp only
      split
      · exact (submit_spoils token hs₂).bind_gives fun _ _ _ _ => ⟨hfresh, hallow⟩
      · exact fun _ => ⟨hfresh, hallow⟩

/-- The memoisation of an answer. -/
theorem blames_rememberOutcome (response : DecisionResponse) (reserve : Bool) :
    Blames (rememberOutcome R txn response reserve) := by
  refine (blames_perform _).bind fun _ => ?_
  split
  · exact blames_perform _
  · exact blames_pure _

theorem steady_rememberOutcome (response : DecisionResponse) (reserve : Bool) :
    (rememberOutcome R txn response reserve).Only Steady := by
  refine Prog.Only.bind ((Prog.only_perform _ _).2 trivial) fun _ => ?_
  split
  · exact (Prog.only_perform _ _).2 trivial
  · trivial

theorem concludeRequest_spoils (outcome : IdempotencyOutcome) (verdict : PDPResult)
    (event : EventFields) {response : DecisionResponse} (hr : Upright response s) :
    (concludeRequest R txn outcome verdict event response).Follows viewing s
      (Gives Upright Spoiled) := by
  refine (blames_recordEventSafe R event).before (only_recordEventSafe R event)
    fun recorded s₁ h₁ => ?_
  have hr₁ : Upright { response with auditEventId := recorded.1, auditHash := recorded.2 } s₁ :=
    Upright.extends (r := response) hr (fun _ => id) h₁
  simp only
  split
  · exact (blames_rememberOutcome _ _).before (steady_rememberOutcome _ _) fun _ s₂ h₂ =>
      hr₁.extends (fun _ => id) h₂
  · exact hr₁

theorem carryOut_spoils (execute : Bool) (outcome : IdempotencyOutcome) (analysis : AnalysisResult)
    (ctx : PolicyContext) (verdict : PDPResult) (hs : Idle s) :
    (carryOut R txn execute outcome analysis ctx verdict).Follows viewing s
      (Gives Upright Spoiled) := by
  have hsteady : ∀ op, Steady op → (perform op).Only Steady := fun op h =>
    (Prog.only_perform _ _).2 h
  refine idle_spoils (hsteady .now trivial) (fun _ => id) hs fun createdAt s₁ hs₁ => ?_
  refine idle_spoils (A := Steady) ?_ (fun _ => id) hs₁ fun _ s₂ hs₂ => ?_
  · exact Prog.Only.bind (hsteady .now trivial) fun now => hsteady _ trivial
  exact (finish_spoils execute hs₂ rfl rfl).bind_gives fun response s₃ hr =>
    concludeRequest_spoils outcome verdict _ hr

theorem runPipeline_spoils (userId : String) (execute : Bool) (hs : Idle s) :
    (runPipeline R txn userId execute).Follows viewing s (Gives Upright Spoiled) := by
  refine idle_spoils (calm_checkDuplicate txn) (fun _ => steady_of_calm) hs fun outcome s₁ hs₁ => ?_
  cases outcome.replayResponse with
  | some stored =>
      exact unsigned_spoils (aside_recordEventSafe R _) (fun _ => id) hs₁.unsigned
        fun _ _ _ hunsigned => upright_of_unsigned hunsigned
  | none =>
      have hsteady : ∀ op, Steady op → (perform op).Only Steady := fun op h =>
        (Prog.only_perform _ _).2 h
      refine idle_spoils (hsteady (.analyze txn) trivial) (fun _ => id) hs₁
        fun analysis s₂ hs₂ => ?_
      refine idle_spoils (calm_loadContext txn) (fun _ => steady_of_calm) hs₂ fun ctx s₃ hs₃ => ?_
      refine idle_spoils (calm_evaluateToken _) (fun _ => steady_of_calm) hs₃
        fun approval s₄ hs₄ => ?_
      exact idle_spoils (hsteady (.evaluatePolicy _) trivial) (fun _ => id) hs₄ fun answer s₅ hs₅ =>
        carryOut_spoils execute outcome analysis ctx _ hs₅

/-- A block under a lock, before anything is signed. -/
theorem withLock_spoils (name : String) (ttl : ℕ) {body : Py DecisionResponse} (hs : Idle s)
    (hbody : ∀ s', Idle s' → body.Follows viewing s' (Gives Upright Spoiled)) :
    (withLock name ttl body).Follows viewing s (Gives Upright Spoiled) := by
  have hdraw : (perform .uuid4).Only Calm := (Prog.only_perform _ _).2 trivial
  refine idle_spoils hdraw (fun _ => steady_of_calm) hs fun token s₁ hs₁ => ?_
  refine idle_spoils (calm_acquire name token ttl _) (fun _ => steady_of_calm) hs₁
    fun _ s₂ hs₂ => ?_
  exact release_spoils (fun _ _ _ hr h => hr.extends (fun _ => id) h) (hbody s₂ hs₂)

/-- The request answers with its own `ALLOW`, or it came to an end late. -/
def Clear (r : DecisionResponse) (s : Memory) : Prop :=
  Signed s → (r.replayed = false ∧ r.decision = .allow) ∨ Late s

theorem clear_of_unsigned {r : DecisionResponse} {s : Memory} (h : ¬ Signed s) : Clear r s :=
  fun hsigned => absurd hsigned h

theorem guardedPipeline_spoils (intent : PaymentIntent) (identity : AgentIdentity) (execute : Bool)
    (hs : Idle s) :
    (guardedPipeline R intent identity execute).Follows viewing s (Gives Clear Spoiled) := by
  have hdraw : (perform .uuid4).Only Calm := (Prog.only_perform _ _).2 trivial
  have hclock : (perform .now).Only Calm := (Prog.only_perform _ _).2 trivial
  refine idle_spoils hdraw (fun _ => steady_of_calm) hs fun id s₁ hs₁ => ?_
  refine idle_spoils hclock (fun _ => steady_of_calm) hs₁ fun timestamp s₂ hs₂ => ?_
  refine (Prog.follows_recover _ _ _ _).2 ?_
  refine (withLock_spoils _ _ hs₂ fun s₃ hs₃ => withLock_spoils _ _ hs₃ fun s₄ hs₄ =>
    runPipeline_spoils identity.userId execute hs₄).mono fun r s₅ hr => ?_
  cases r with
  | ok r => exact fun hsigned => .inl (hr hsigned)
  | error e =>
      cases e with
      | timeoutError =>
          have hnow : Aftermath .now := trivial
          exact perform_spoils fun createdAt hsigned =>
            .inr (Spoiled.extends hr (Extends.cons hnow _ s₅) hsigned)
      | _ => exact hr

theorem blockedBeforePipeline_spoils {intent : PaymentIntent} (reasonCodes : List String)
    (message stage : String) (hs : ¬ Signed s) :
    (blockedBeforePipeline R intent reasonCodes message stage).Follows viewing s
      (Gives Clear Spoiled) := by
  refine ((aside_blockedBeforePipeline R intent reasonCodes message stage).extends
    (fun _ _ _ => trivial) s).mono fun r s' h => ?_
  have hunsigned : ¬ Signed s' := fun hsigned => hs (hsigned.of_extends (fun _ => id) h)
  cases r with
  | ok r => exact clear_of_unsigned hunsigned
  | error e => exact spoiled_of_unsigned hunsigned

theorem admission_spoils (intent : PaymentIntent) (identity : AgentIdentity) (execute : Bool)
    (hs : Idle s) :
    (admission R intent identity execute).Follows viewing s (Gives Clear Spoiled) := by
  refine idle_spoils (calm_enforceEdgeRateLimit R _ _).attempt (fun _ => steady_of_calm) hs
    fun admitted s₁ hs₁ => ?_
  cases admitted with
  | ok _ => exact guardedPipeline_spoils intent identity execute hs₁
  | error e =>
      cases e with
      | rateLimitError scope limit => exact blockedBeforePipeline_spoils _ _ _ hs₁.unsigned
      | _ => exact spoiled_of_unsigned hs₁.unsigned

theorem createPaymentIntent_spoils (intent : PaymentIntent) (credential : Credential)
    (execute : Bool) (hs : Idle s) :
    (createPaymentIntent R intent credential execute).Follows viewing s (Gives Clear Spoiled) := by
  refine idle_spoils (calm_authenticate credential intent).attempt (fun _ => steady_of_calm) hs
    fun authenticated s₁ hs₁ => ?_
  cases authenticated with
  | ok identity => exact admission_spoils intent identity execute hs₁
  | error e =>
      cases e with
      | identityError reasonCode message => exact blockedBeforePipeline_spoils _ _ _ hs₁.unsigned
      | _ => exact spoiled_of_unsigned hs₁.unsigned

end Programs

/-- What a payment request is answered with, once it signed. -/
def Acquitted : Job → Except Exn Response → Memory → Prop
  | .paymentIntent .., .ok response, s => Signed s →
      (∃ r, response = .decision r ∧ r.replayed = false ∧ r.decision = .allow) ∨ Late s
  | _, _, _ => True

theorem job_acquitted (R : Runtime) (job : Job) :
    (job.start R).Follows viewing [] (Acquitted job) := by
  cases job with
  | paymentIntent intent credential execute =>
      have hidle : Idle [] := ⟨fun ⟨_, _, h⟩ => absurd h List.not_mem_nil, rfl⟩
      refine (Prog.follows_recover _ _ _ _).2 ((Prog.follows_bind _ _ _ _).2 ?_)
      refine (createPaymentIntent_spoils intent credential execute hidle).mono fun r s hr => ?_
      cases r with
      | ok r => exact fun hsigned => (hr hsigned).imp_left fun h => ⟨r, rfl, h.1, h.2⟩
      | error e =>
          change Prog.Follows viewing (if _ then _ else _) _ _
          split
          · exact fun hsigned => .inr (hr hsigned)
          · trivial
  | _ => exact follows_viewing _ []

/-! ## Runs -/

/-- A request that sent a charge signed a credential before. -/
theorem signed_of_charged {R : Runtime} {D : Discipline} {c : Config}
    (hc : Reachable (machine R) D c) {tid : ℕ} {token : AuthorizationClaims} {body : ChargeRequest}
    {answer : Except Exn Unit} (h : ⟨.sendCharge token body, answer⟩ ∈ seenBy tid c.log) :
    Signed (seenBy tid c.log) := by
  obtain ⟨c₀, h₀⟩ := instant_of_seen hc h
  obtain ⟨s, hs, -, -, hissued, -⟩ := h₀.custody
  have hheld : Holding s ⟨.signAuthorization token, .ok ()⟩ := hissued
  exact ⟨token, .ok (), h₀.seen.mem (seen_of_holding hs hheld)⟩

/-- **A request that signed a credential or sent a charge was answered with its own `ALLOW`, or it
came to an end late.** -/
theorem moved_only_by_allow {R : Runtime} {D : Discipline} {c : Config}
    (hc : Reachable (machine R) D c) {tid : ℕ} {intent : PaymentIntent} {credential : Credential}
    {execute : Bool} {response : Response}
    (ht : c.threads[tid]? = some ⟨.paymentIntent intent credential execute, .ret (.ok response)⟩)
    (hmoved : Signed (seenBy tid c.log) ∨
      ∃ token body answer, ⟨.sendCharge token body, answer⟩ ∈ seenBy tid c.log) :
    (∃ r, response = .decision r ∧ r.replayed = false ∧ r.decision = .allow) ∨
      Late (seenBy tid c.log) := by
  have hpost : Acquitted (.paymentIntent intent credential execute) (.ok response)
      (seenBy tid c.log) := hc.ended (G := fun _ _ _ => True) (job_acquitted R) ht
  rcases hmoved with hsigned | ⟨token, body, answer, hcharged⟩
  · exact hpost hsigned
  · exact hpost (signed_of_charged hc hcharged)

/-- A payment whose charge is answered with a body that does not parse. -/
def chargedAndUnread : List (Label Job Env Outcome) :=
  [Scenario.request Scenario.firstOrder true] ++
    steps 0 (Scenario.toInsertion ++ oks 29 ++
      [.reply { statusCode := 200, text := "", json := none }] ++ oks 2)

/-- The first request was answered with the fail-closed body. -/
def failedClosed (c : Config) : Bool :=
  match (c.threads[0]? : Option (Thread Job Op Op.Val Exn Response)) with
  | some ⟨.paymentIntent .., .ret (.ok (.failClosed _))⟩ => true
  | _ => false

/-- The sending of a charge. -/
def isSentCharge : (op : Op) × Except Exn op.Val → Bool
  | ⟨.sendCharge .., _⟩ => true
  | _ => false

theorem moved_only_by_allow_unread : ∃ c : Config, failedClosed c = true ∧
    (seenBy 0 c.log).any isSentCharge = true ∧ Late (seenBy 0 c.log) := by
  have hrun : executes Scenario.runtime {} (Scenario.world (Scenario.policy "u" 200 10))
      chargedAndUnread (fun c => failedClosed c && (seenBy 0 c.log).any isSentCharge) = true := by
    decide +kernel
  obtain ⟨c, hc, hend⟩ := exists_reachable hrun
  rw [Bool.and_eq_true] at hend
  obtain ⟨hfailed, hany⟩ := hend
  refine ⟨c, hfailed, hany, ?_⟩
  obtain ⟨⟨op, answer⟩, hmem, hcharge⟩ := List.any_eq_true.1 hany
  unfold isSentCharge at hcharge
  split at hcharge
  case h_2 => cases hcharge
  rename_i token body answer' heq
  cases heq
  unfold failedClosed at hfailed
  split at hfailed
  case h_2 => cases hfailed
  rename_i intent credential execute reasonCodes ht
  rcases moved_only_by_allow hc ht (.inr ⟨token, body, _, hmem⟩) with ⟨r, hr, -⟩ | hlate
  · cases hr
  · exact hlate

end AgentPay.Properties
