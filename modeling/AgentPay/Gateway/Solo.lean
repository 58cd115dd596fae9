import AgentPay.Gateway.Ledger
import AgentPay.Gateway.Payments

/-!
# Programs that run while no one else writes their row

A row oracle answers the operations of a program: those on the row of one payment as the database
does, and all others in any way that leaves this row alone. So the provider, the locks and the audit
log may react and fail as they like. `alone` is the world as such an oracle, with given reactions of
the provider and with time passing at every operation.
-/

set_option autoImplicit false

namespace AgentPay.Gateway

open AgentPay.Library

/-- The operation writes the row of a payment. -/
def Op.WritesRow (id : ℕ) : Op → Prop
  | .commitUses id' _ | .commitState id' _ _ _ | .commitToken id' _ _ => id' = id
  | .insertTransaction row => row.paymentAuthorizationId = id
  | _ => False

/-- The operations on the row of a payment are those of the database, and no other operation changes
the row. -/
structure RowOracle {W : Type} (answer : W → (op : Op) → Except Exn op.Val × W) (id : ℕ)
    (row : W → Option Transaction) : Prop where
  read : ∀ w, (answer w (.getTransaction id)).1 = .ok (row w)
  uses : ∀ w uses, (answer w (.commitUses id uses)).1 = .ok () ∧
    row (answer w (.commitUses id uses)).2 = (row w).map fun r => { r with tokenUses := uses }
  state : ∀ w target reference detail, storable reference detail = true →
    (answer w (.commitState id target reference detail)).1 = .ok () ∧
      row (answer w (.commitState id target reference detail)).2 =
        (row w).map (Transaction.withState target reference detail)
  refused : ∀ w target reference detail, storable reference detail = false →
    (answer w (.commitState id target reference detail)).1 = .error .dataError ∧
      row (answer w (.commitState id target reference detail)).2 = row w
  frame : ∀ w op, ¬ op.WritesRow id → row (answer w op).2 = row w

/-- The event of a transition. -/
def stateEvent (r : Transaction) (id : ℕ) (target : PaymentState) (providerReference : Option Json)
    (detail : Option String) : EventFields where
  eventType := "payment." ++ target.value.toLower
  paymentAuthorizationId := some id
  userId := some r.userId
  agentId := some r.agentId
  reasonCodes := ["STATE_" ++ r.state.value ++ "_TO_" ++ target.value]
  policyVersion := some r.policyVersion
  payload := .obj [
    ("from", .str r.state.value),
    ("to", .str target.value),
    ("provider_reference", providerReference.getD .null),
    ("detail", optionalStr detail),
    ("settled", .bool (decide (target = .confirmed)))]

/-- The operations of a transition are those on its row and those of an append. -/
theorem setState_only {A : Op → Prop} (R : Runtime) (id : ℕ) (hread : A (.getTransaction id))
    (hcommit : ∀ target reference detail, A (.commitState id target reference detail))
    (happend : ∀ op, op.Appends → A op) (target : PaymentState) (reference : Option Json)
    (detail : Option String) (audit : Bool) :
    (setState R id target reference detail audit).Only A := by
  refine Prog.Only.bind ((Prog.only_perform _ _).2 hread) fun row => ?_
  cases row with
  | none => trivial
  | some row =>
      refine Prog.Only.bind (Prog.only_ret _ _ |>.2 trivial) fun _ => ?_
      refine Prog.Only.bind ((Prog.only_perform _ _).2 (hcommit _ _ _)) fun _ => ?_
      cases audit with
      | false => trivial
      | true => exact Prog.Only.bind ((recordEvent_only R _).mono happend) fun _ => trivial

section Evaluation

variable {W : Type} {answer : W → (op : Op) → Except Exn op.Val × W}

/-- The world after the row was read and a transition committed. -/
def committed (answer : W → (op : Op) → Except Exn op.Val × W) (w : W) (id : ℕ)
    (target : PaymentState) (reference : Option Json) (detail : Option String) : W :=
  (answer (answer w (.getTransaction id)).2 (.commitState id target reference detail)).2

variable {id : ℕ} {row : W → Option Transaction} (h : RowOracle answer id row) (R : Runtime)
include h

theorem RowOracle.frame_appends (w : W) (op : Op) (hop : op.Appends) :
    row (answer w op).2 = row w :=
  h.frame w op fun hwrites => by cases op <;> first | exact hop.elim | exact hwrites.elim

theorem RowOracle.row_recordEvent (f : EventFields) (w : W) :
    row ((recordEvent R f).eval answer w).2 = row w :=
  (recordEvent_only R f).eval_frame h.frame_appends w

theorem RowOracle.row_read (w : W) : row (answer w (.getTransaction id)).2 = row w :=
  h.frame w _ fun hwrites => hwrites.elim

variable {w : W} {r : Transaction} (hr : row w = some r) {target : PaymentState}
  {reference : Option Json} {detail : Option String}
include hr

theorem RowOracle.setState_valid (ht : target ∈ validTransitions r.state) :
    (setState R id target reference detail true).eval answer w =
      (perform (.commitState id target reference detail) >>= fun _ =>
        recordEvent R (stateEvent r id target reference detail) >>= fun _ =>
          (pure target : Py PaymentState)).eval answer (answer w (.getTransaction id)).2 := by
  have hread : ((perform (.getTransaction id)).eval answer w).1 = .ok (some r) := by
    rw [Prog.eval_perform, h.read, hr]
  have hassert : (((Prog.ret (assertTransition r.state target) : Py Unit)).eval answer
      (answer w (.getTransaction id)).2).1 = .ok () := by
    rw [Prog.eval_ret, assertTransition, if_pos ht]
  rw [setState, Prog.eval_bind_ok hread]
  exact Prog.eval_bind_ok hassert _

/-- A transition the database accepts moves the row, whether or not the append succeeds. -/
theorem RowOracle.setState_accepted (ht : target ∈ validTransitions r.state)
    (hs : storable reference detail = true) :
    row ((setState R id target reference detail true).eval answer w).2 =
        some (r.withState target reference detail) ∧
      ((setState R id target reference detail true).eval answer w).1 =
        ((recordEvent R (stateEvent r id target reference detail)).eval answer
          (committed answer w id target reference detail)).1.map fun _ => target := by
  obtain ⟨hok, hrow⟩ := h.state (answer w (.getTransaction id)).2 target reference detail hs
  rw [h.row_read, hr, Option.map_some] at hrow
  rw [h.setState_valid R hr ht, Prog.eval_bind_ok (p := perform _) hok, Prog.eval_bind_pure]
  exact ⟨(h.row_recordEvent R _ _).trans hrow, rfl⟩

/-- A transition the database refuses leaves the row. -/
theorem RowOracle.setState_refused (ht : target ∈ validTransitions r.state)
    (hs : storable reference detail = false) :
    row ((setState R id target reference detail true).eval answer w).2 = some r ∧
      ((setState R id target reference detail true).eval answer w).1 = .error .dataError := by
  obtain ⟨herror, hrow⟩ := h.refused (answer w (.getTransaction id)).2 target reference detail hs
  rw [h.row_read, hr] at hrow
  rw [h.setState_valid R hr ht, Prog.eval_bind_error (p := perform _) herror]
  exact ⟨hrow, rfl⟩

end Evaluation

/-! ## The world alone -/

/-- How the world reacts: the answers of the provider to a charge and to a query of a payment, and the
time every operation takes. -/
structure Reactions where
  charge : ℕ → Except Exn ProviderReply
  query : ℕ → Except Exn ProviderReply
  elapse : World → Op → Time

/-- The world without other tasks. -/
def alone (x : Reactions) (w : World) (op : Op) : Except Exn op.Val × World :=
  (match op with
    | .awaitCharge id => x.charge id
    | .awaitQuery id => x.query id
    | op => (w.value op).getD (.error .other),
   { w.apply op with clock := (w.apply op).clock + x.elapse w op })

@[simp] theorem alone_transactions (x : Reactions) (w : World) (op : Op) :
    (alone x w op).2.transactions = (w.apply op).transactions := rfl

theorem alone_row? (x : Reactions) (w : World) (op : Op) (id : ℕ) :
    (alone x w op).2.row? id = (w.apply op).row? id := rfl

namespace World

/-- An operation that writes no row of a payment leaves its row. -/
theorem row?_apply_of_not_writes (w : World) {op : Op} {id : ℕ} (h : ¬ op.WritesRow id) :
    (w.apply op).row? id = w.row? id := by
  have hupdate : ∀ {id' : ℕ} {f : Transaction → Transaction}, id' ≠ id →
      (∀ r, (f r).paymentAuthorizationId = r.paymentAuthorizationId) →
      (w.updateRow id' f).row? id = w.row? id := by
    intro id' f hne hf
    rw [row?_updateRow w id' f hf]
    simp only [if_neg (Ne.symm hne), Option.map_id']
  cases op
  case commitToken id' jti expiresAt => exact hupdate h fun _ => rfl
  case commitUses id' uses => exact hupdate h fun _ => rfl
  case commitState id' target reference detail =>
      simp only [apply]
      split
      · exact hupdate h fun _ => rfl
      · rfl
  case insertTransaction row =>
      simp only [apply]
      split
      · rfl
      · rw [row?_of_insert (w := w) rfl]
        exact if_neg h
  all_goals first
    | rfl
    | (simp only [apply]; split <;> rfl)

end World

/-- The world is an oracle for every row. -/
theorem alone_rowOracle (x : Reactions) (id : ℕ) :
    RowOracle (alone x) id fun w => w.row? id where
  read _ := rfl
  uses w uses := by
    refine ⟨rfl, ?_⟩
    rw [alone_row?]
    change (w.updateRow id _).row? id = _
    rw [World.row?_updateRow]
    · simp only [if_true]
    · exact fun _ => rfl
  state w target reference detail hs := by
    constructor
    · simp only [alone, World.value, if_pos hs, Option.getD_some]
    · rw [alone_row?]
      simp only [World.apply, if_pos hs]
      rw [World.row?_updateRow]
      · simp only [if_true]
      · exact fun _ => rfl
  refused w target reference detail hs := by
    have hs' : ¬ storable reference detail = true := by rw [hs]; exact Bool.false_ne_true
    constructor
    · simp only [alone, World.value, if_neg hs', Option.getD_some]
    · rw [alone_row?]
      simp only [World.apply, if_neg hs']
  frame w op h := (alone_row? x w op id).trans (w.row?_apply_of_not_writes h)

/-! ## Appends alone -/

/-- The lock of the audit chain is free. -/
def World.ChainFree (w : World) : Prop := w.lookup (lockKey "audit_chain") = none

/-- The lock of the audit chain carries a token, whether or not its lease is over. -/
def World.ChainHeld (w : World) (token : ℕ) : Prop :=
  ∃ expires, w.kv.lookup (lockKey "audit_chain") = some ⟨.lockToken token, expires⟩

/-- A lock stays free as time passes. -/
theorem World.ChainFree.later {w w' : World} (h : w.ChainFree) (hkv : w'.kv = w.kv)
    (hclock : w.clock ≤ w'.clock) : w'.ChainFree := by
  unfold World.ChainFree World.lookup at h ⊢
  rw [hkv]
  cases hentry : w.kv.lookup (lockKey "audit_chain") with
  | none => rfl
  | some e =>
      rw [hentry, Option.bind_some] at h
      have hover : ¬ w.clock < e.expires := fun hlt => by
        rw [if_pos hlt] at h
        cases h
      rw [Option.bind_some, if_neg fun hlt => hover (hclock.trans_lt hlt)]

/-- A lock that carries a token is free after its release under this token. -/
theorem World.ChainHeld.release {w : World} {token : ℕ} (h : w.ChainHeld token) :
    (w.apply (.deleteIfValue (lockKey "audit_chain") token)).ChainFree := by
  obtain ⟨expires, hentry⟩ := h
  by_cases halive : w.clock < expires
  · have hlookup : w.lookup (lockKey "audit_chain") = some (.lockToken token) := by
      rw [World.lookup, hentry, Option.bind_some, if_pos halive]
    simp only [World.apply, if_pos hlookup]
    unfold World.ChainFree World.lookup
    rw [lookup_removeKey_self]
    rfl
  · have hlookup : w.lookup (lockKey "audit_chain") = none := by
      rw [World.lookup, hentry, Option.bind_some, if_neg halive]
    simp only [World.apply, hlookup, reduceCtorEq, if_false]
    exact hlookup

/-- Alone, the lock of the audit chain is taken at the first attempt. -/
theorem acquire_alone (x : Reactions) {w : World} (h : w.ChainFree) (token ttl n : ℕ) :
    ((acquire "audit_chain" token ttl (n + 1)).eval (alone x) w).1 = .ok () ∧
      ((acquire "audit_chain" token ttl (n + 1)).eval (alone x) w).2.ChainHeld token := by
  have htaken : ((perform (.setNx (lockKey "audit_chain") token ttl)).eval (alone x) w).1 =
      .ok true := by
    simp only [Prog.eval_perform, alone, World.value, show w.lookup (lockKey "audit_chain") = none from h]
    rfl
  rw [acquire, Prog.eval_bind_ok htaken]
  refine ⟨rfl, w.clock + seconds ttl, ?_⟩
  change (World.apply w _).kv.lookup _ = _
  simp only [World.apply, show w.lookup (lockKey "audit_chain") = none from h, Option.isSome_none,
    Bool.false_eq_true, if_false, lookup_putKey_self]

theorem World.ChainHeld.of_kv {w w' : World} {token : ℕ} (h : w.ChainHeld token)
    (hkv : w'.kv = w.kv) : w'.ChainHeld token := by
  unfold World.ChainHeld at h ⊢
  rwa [hkv]

/-- Alone, a block under the lock of the audit chain runs as it would without it, and leaves the lock
free. -/
theorem withLock_alone (x : Reactions) {α : Type} (ttl : ℕ) {body : Py α} {w : World}
    (h : w.ChainFree) (hbody : ∀ w', ∃ a, (body.eval (alone x) w').1 = .ok a ∧
      (body.eval (alone x) w').2.kv = w'.kv) :
    ∃ a, ((withLock "audit_chain" ttl body).eval (alone x) w).1 = .ok a ∧
      ((withLock "audit_chain" ttl body).eval (alone x) w).2.ChainFree := by
  have hdrawn : ((perform .uuid4).eval (alone x) w).1 = .ok w.nextUuid := rfl
  have hfree : ((perform .uuid4).eval (alone x) w).2.ChainFree := h.later rfl (Nat.le_add_right _ _)
  rw [withLock, Prog.eval_bind_ok hdrawn]
  generalize ((perform .uuid4).eval (alone x) w).2 = w₁ at hfree
  obtain ⟨htaken, hheld⟩ := acquire_alone x hfree w.nextUuid ttl 49
  rw [show lockAttempts = 49 + 1 from rfl, Prog.eval_bind_ok htaken, Prog.eval_ensure]
  generalize ((acquire "audit_chain" w.nextUuid ttl (49 + 1)).eval (alone x) w₁).2 = w₂ at hheld
  obtain ⟨a, ha, hkv⟩ := hbody w₂
  have hreleased := (hheld.of_kv hkv).release
  refine ⟨a, ha, hreleased.later rfl (Nat.le_add_right _ _)⟩

/-- Alone, an append succeeds and leaves the lock of the audit chain free. -/
theorem recordEvent_alone (x : Reactions) (R : Runtime) (f : EventFields) {w : World}
    (h : w.ChainFree) : ∃ recorded, ((recordEvent R f).eval (alone x) w).1 = .ok recorded ∧
      ((recordEvent R f).eval (alone x) w).2.ChainFree := by
  have hdrawn : ((perform .uuid4).eval (alone x) w).1 = .ok w.nextUuid := rfl
  have hfree : ((perform .uuid4).eval (alone x) w).2.ChainFree := h.later rfl (Nat.le_add_right _ _)
  rw [recordEvent, Prog.eval_bind_ok hdrawn]
  generalize ((perform .uuid4).eval (alone x) w).2 = w₁ at hfree
  have hread : ((perform .now).eval (alone x) w₁).1 = .ok w₁.clock := rfl
  have hfree' : ((perform .now).eval (alone x) w₁).2.ChainFree :=
    hfree.later rfl (Nat.le_add_right _ _)
  rw [Prog.eval_bind_ok hread]
  exact withLock_alone x 15 hfree' fun w' => ⟨_, rfl, rfl⟩

/-- Alone, a transition the database accepts succeeds. -/
theorem setState_alone (x : Reactions) (R : Runtime) {w : World} (h : w.ChainFree) {id : ℕ}
    {r : Transaction} (hr : w.row? id = some r) {target : PaymentState} {reference : Option Json}
    {detail : Option String} (ht : target ∈ validTransitions r.state)
    (hs : storable reference detail = true) :
    ((setState R id target reference detail true).eval (alone x) w).1 = .ok target ∧
      ((setState R id target reference detail true).eval (alone x) w).2.ChainFree := by
  have hread : (alone x w (.getTransaction id)).2.ChainFree := h.later rfl (Nat.le_add_right _ _)
  rw [(alone_rowOracle x id).setState_valid R hr ht]
  generalize (alone x w (.getTransaction id)).2 = w₁ at hread
  have hcommit : ((perform (.commitState id target reference detail)).eval (alone x) w₁).1 =
      .ok () := ((alone_rowOracle x id).state w₁ target reference detail hs).1
  have hfree : ((perform (.commitState id target reference detail)).eval (alone x) w₁).2.ChainFree := by
    refine hread.later ?_ ?_
    · change (w₁.apply _).kv = w₁.kv
      simp only [World.apply, if_pos hs, World.updateRow]
    · change w₁.clock ≤ (w₁.apply _).clock + _
      simp only [World.apply, if_pos hs, World.updateRow]
      exact Nat.le_add_right _ _
  rw [Prog.eval_bind_ok hcommit]
  obtain ⟨recorded, hrecorded, hleft⟩ :=
    recordEvent_alone x R (stateEvent r id target reference detail) hfree
  rw [Prog.eval_bind_ok hrecorded]
  exact ⟨rfl, hleft⟩

end AgentPay.Gateway
