import AgentPay.Gateway.Effects

/-!
# The world around the gateway

The shared store, the database, the registries and the clock, with the effect of every operation on
them. A key of the store is alive until its expiry. An insertion into the transactions is refused
when it would break the primary key or the partial unique index; the other database writes change
the columns they name in the row as it is at that moment.

How an operation ends is a choice (`Outcome`): it can fail before or after it took effect, and the
answers of the analyzer and of the provider are free.
-/

set_option autoImplicit false

namespace AgentPay.Gateway

open AgentPay.Library AgentPay.Policies

/-! ## Association lists -/

/-- The list without the entries of a key. -/
def removeKey {α : Type} (key : String) (l : List (String × α)) : List (String × α) :=
  l.filter fun p => decide (p.1 ≠ key)

/-- The list with one entry for a key. -/
def putKey {α : Type} (key : String) (a : α) (l : List (String × α)) : List (String × α) :=
  (key, a) :: removeKey key l

theorem lookup_removeKey_self {α : Type} (key : String) (l : List (String × α)) :
    (removeKey key l).lookup key = none := by
  rw [List.lookup_eq_none_iff]
  intro p hp
  have h : p.1 ≠ key := of_decide_eq_true (List.mem_filter.1 hp).2
  exact bne_iff_ne.2 h.symm

theorem lookup_removeKey_of_ne {α : Type} {key key' : String} (h : key' ≠ key)
    (l : List (String × α)) : (removeKey key l).lookup key' = l.lookup key' := by
  induction l with
  | nil => rfl
  | cons p l ih =>
      obtain ⟨k, a⟩ := p
      by_cases hk : k = key
      · rw [removeKey, List.filter_cons_of_neg (by simpa using hk), ← removeKey, ih,
          List.lookup_cons, beq_false_of_ne (by rw [hk]; exact h)]
      · rw [removeKey, List.filter_cons_of_pos (by simpa using hk), ← removeKey, List.lookup_cons,
          List.lookup_cons, ih]

@[simp] theorem lookup_putKey_self {α : Type} (key : String) (a : α) (l : List (String × α)) :
    (putKey key a l).lookup key = some a := by
  simp [putKey]

theorem lookup_putKey_of_ne {α : Type} {key key' : String} (h : key' ≠ key) (a : α)
    (l : List (String × α)) : (putKey key a l).lookup key' = l.lookup key' := by
  rw [putKey, List.lookup_cons, beq_false_of_ne h, lookup_removeKey_of_ne h]

/-! ## The world -/

/-- A key of the store with its expiry. -/
structure Entry where
  value : Stored
  expires : Time
deriving DecidableEq

/-- A sorted set of the store with the expiry of its key. -/
structure ZSet where
  members : List (ℕ × Time)
  expires : Time
deriving DecidableEq

/-- The shared state. Transactions and audit events are listed newest first; `authorizations` and
`approvals` are the claims that carry the gateway's signature. -/
structure World where
  clock : Time
  nextUuid : ℕ := 0
  kv : List (String × Entry) := []
  zsets : List (String × ZSet) := []
  revoked : List String := []
  policies : List SpendingPolicy := []
  merchants : List Merchant := []
  agents : List AgentRegistration := []
  transactions : List Transaction := []
  audit : List AuditEvent := []
  authorizations : List AuthorizationClaims := []
  approvals : List ApprovalClaims := []

namespace World

/-- The value of a key that is alive. -/
def lookup (w : World) (key : String) : Option Stored :=
  (w.kv.lookup key).bind fun e => if w.clock < e.expires then some e.value else none

/-- The members of a sorted set that is alive. -/
def zmembers (w : World) (key : String) : List (ℕ × Time) :=
  match w.zsets.lookup key with
  | some z => if w.clock < z.expires then z.members else []
  | none => []

/-- The row of a payment. -/
def row? (w : World) (paymentAuthorizationId : ℕ) : Option Transaction :=
  w.transactions.find? fun r => r.paymentAuthorizationId == paymentAuthorizationId

/-- The database refuses a new row: its key is taken, or it clashes in the partial unique index. -/
def refuses (w : World) (row : Transaction) : Bool :=
  w.transactions.any fun r =>
    r.paymentAuthorizationId == row.paymentAuthorizationId || r.clashes row

/-- The states that count against the daily budget. -/
def settledStates : List PaymentState := [.authorized, .submitted, .confirmed, .timeout, .unknown]

/-- The settled spend of a user since an instant. -/
def settledSince (w : World) (userId : String) (since : Time) : ℤ :=
  ((w.transactions.filter fun r => r.userId == userId && decide (since ≤ r.createdAt) &&
    decide (r.state ∈ settledStates)).map Transaction.amount).sum

/-- A change of the row of one payment. -/
def updateRow (w : World) (paymentAuthorizationId : ℕ) (f : Transaction → Transaction) : World :=
  { w with transactions := w.transactions.map fun r =>
      if r.paymentAuthorizationId = paymentAuthorizationId then f r else r }

end World

/-- A text the database accepts; it stores no NUL character. -/
def storableText (s : String) : Bool := s.toList.all fun c => c.toNat != 0

/-- A reference the database accepts: falsy, and then not written, or a text of at most 128
characters. -/
def storableReference : Option Json → Bool
  | some (.str s) => storableText s && decide (s.length ≤ 128)
  | some j => !j.truthy
  | none => true

/-- The database accepts what a state commit writes. -/
def storable (reference : Option Json) (detail : Option String) : Bool :=
  storableReference reference && detail.all storableText

/-- The columns a state commit writes. -/
def Transaction.withState (target : PaymentState) (providerReference : Option Json)
    (detail : Option String) (r : Transaction) : Transaction :=
  { r with
    state := target
    providerReference := match providerReference with
      | some (.str s) => if s = "" then r.providerReference else some s
      | _ => r.providerReference
    providerDetail := match detail with
      | some d => if d = "" then r.providerDetail else some d
      | none => r.providerDetail }

namespace World

/-- The state change of an operation that takes effect. -/
def apply (w : World) : Op → World
  | .uuid4 => { w with nextUuid := w.nextUuid + 1 }
  | .set key value ex => { w with kv := putKey key ⟨value, w.clock + seconds ex⟩ w.kv }
  | .setNx key token ex =>
      if (w.lookup key).isSome then w
      else { w with kv := putKey key ⟨.lockToken token, w.clock + seconds ex⟩ w.kv }
  | .deleteIfValue key token =>
      if w.lookup key = some (.lockToken token) then { w with kv := removeKey key w.kv } else w
  | .zadd key window now member =>
      let kept := (w.zmembers key).filter fun m => decide (now < m.2 + seconds window)
      { w with zsets := putKey key ⟨(member, now) :: kept, w.clock + seconds (window * 2)⟩ w.zsets }
  | .insertTransaction row =>
      if w.refuses row then w else { w with transactions := row :: w.transactions }
  | .commitToken id jti expiresAt =>
      w.updateRow id fun r => { r with tokenJti := some jti, tokenExpiresAt := some expiresAt }
  | .commitUses id uses => w.updateRow id fun r => { r with tokenUses := uses }
  | .commitState id target reference detail =>
      if storable reference detail then w.updateRow id (Transaction.withState target reference detail)
      else w
  | .insertAudit event => { w with audit := event :: w.audit }
  | .signAuthorization claims => { w with authorizations := claims :: w.authorizations }
  | .signApproval claims => { w with approvals := claims :: w.approvals }
  | _ => w

/-- The answer of an operation that completes; the analyzer and the provider have none of their
own. -/
def value (w : World) : (op : Op) → Option (Except Exn op.Val)
  | .now => some (.ok w.clock)
  | .uuid4 => some (.ok w.nextUuid)
  | .get key => some (.ok (w.lookup key))
  | .setNx key _ _ => some (.ok (w.lookup key).isNone)
  | .deleteIfValue key token => some (.ok (decide (w.lookup key = some (.lockToken token))))
  | .isRevoked delegationId => some (.ok (decide (delegationId ∈ w.revoked)))
  | .zcount key since =>
      some (.ok ((w.zmembers key).filter fun m => decide (since ≤ m.2)).length)
  | .zadd key window now _ =>
      some (.ok (((w.zmembers key).filter fun m => decide (now < m.2 + seconds window)).length + 1))
  | .getPolicy delegationId => some (.ok (w.policies.find? fun p => p.delegationId == delegationId))
  | .getMerchant merchantId => some (.ok (w.merchants.find? fun m => m.merchantId == merchantId))
  | .getAgent agentId => some (.ok (w.agents.find? fun a => a.agentId == agentId))
  | .sumSettled userId since => some (.ok (w.settledSince userId since))
  | .insertTransaction row =>
      some (if w.refuses row then .error .integrityError else .ok ())
  | .getTransaction id => some (.ok (w.row? id))
  | .commitState _ _ reference detail =>
      some (if storable reference detail then .ok () else .error .dataError)
  | .selectUnknown cutoff => some (.ok ((w.transactions.filter fun r =>
      decide (r.state = .unknown) && decide (cutoff ≤ r.createdAt)).map fun r =>
        (r.paymentAuthorizationId, r.idempotencyKey)))
  | .selectStale now => some (.ok ((w.transactions.filter fun r =>
      decide (r.state = .authorized) && r.tokenExpiresAt.any fun t => decide (t < now)).map
        Transaction.paymentAuthorizationId))
  | .auditHead => some (.ok (w.audit.head?.map AuditEvent.eventHash))
  | .evaluatePolicy input => some (.ok (.body (result input)))
  | .verifyApproval claims => some (.ok (decide (claims ∈ w.approvals)))
  | .analyze _ | .awaitCharge _ | .awaitQuery _ => none
  | .sleep | .set .. | .commitToken .. | .commitUses .. | .insertAudit _ | .signAuthorization _
  | .signApproval _ | .sendCharge .. | .sendQuery _ => some (.ok ())

end World

/-- How an operation ends. -/
inductive Outcome where
  | ok
  | analysis (result : AnalysisResult)
  | opaError (kind : String)
  | opaNotJson
  | reply (reply : ProviderReply)
  | fault (e : Exn) (applied : Bool)

namespace World

/-- The answer of an operation under an outcome that is not a fault. -/
def answer (w : World) : (op : Op) → Outcome → Option (Except Exn op.Val)
  | .analyze _, .analysis a => some (.ok a)
  | .evaluatePolicy _, .opaError kind => some (.ok (.httpError kind))
  | .evaluatePolicy _, .opaNotJson => some (.ok .notJson)
  | .awaitCharge _, .reply r => some (.ok r)
  | .awaitQuery _, .reply r => some (.ok r)
  | op, .ok => w.value op
  | _, _ => none

/-- One operation under an outcome. Operations that never suspend do not fail. -/
def perform (w : World) (op : Op) : Outcome → Option (World × Except Exn op.Val)
  | .fault e applied =>
      if op.isLocal then none else some (if applied then w.apply op else w, .error e)
  | outcome => (w.answer op outcome).map fun a => (w.apply op, a)

/-- An operation changes the world as its effect does, or not at all. -/
theorem perform_world {w w' : World} {op : Op} {o : Outcome} {a : Except Exn op.Val}
    (h : w.perform op o = some (w', a)) : w' = w.apply op ∨ w' = w := by
  unfold perform at h
  split at h
  · split at h
    · cases h
    · obtain ⟨rfl, -⟩ := Prod.mk.inj (Option.some.inj h)
      split
      · exact .inl rfl
      · exact .inr rfl
  · obtain ⟨b, -, hb⟩ := Option.map_eq_some_iff.1 h
    exact .inl (Prod.mk.inj hb).1.symm

/-- An operation that answers with a value took effect. -/
theorem perform_ok {w w' : World} {op : Op} {o : Outcome} {v : op.Val}
    (h : w.perform op o = some (w', .ok v)) :
    w' = w.apply op ∧ w.answer op o = some (.ok v) := by
  unfold perform at h
  split at h
  · split at h <;> cases h
  · obtain ⟨b, hb, heq⟩ := Option.map_eq_some_iff.1 h
    obtain ⟨rfl, rfl⟩ := Prod.mk.inj heq
    exact ⟨rfl, hb⟩

end World

/-- What happens around the gateway: time passes, the store loses a key, and the control plane
changes the registries. -/
inductive Env where
  | tick (d : Time)
  | loseKey (key : String)
  | upsertPolicy (policy : SpendingPolicy)
  | upsertMerchant (merchant : Merchant)
  | upsertAgent (agent : AgentRegistration)
  | revoke (delegationId : String)
  | reinstate (delegationId : String)

/-- The effect of the environment. -/
def World.environment (w : World) : Env → World
  | .tick d => { w with clock := w.clock + d }
  | .loseKey key => { w with kv := removeKey key w.kv, zsets := removeKey key w.zsets }
  | .upsertPolicy p => { w with
      policies := p :: w.policies.filter fun q => q.delegationId != p.delegationId }
  | .upsertMerchant m => { w with
      merchants := m :: w.merchants.filter fun n => n.merchantId != m.merchantId }
  | .upsertAgent a => { w with agents := a :: w.agents.filter fun b => b.agentId != a.agentId }
  | .revoke d => { w with revoked := d :: w.revoked }
  | .reinstate d => { w with revoked := w.revoked.filter fun x => x != d }

end AgentPay.Gateway
