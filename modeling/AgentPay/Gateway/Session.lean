import AgentPay.Gateway.Routes

/-!
# What a job knows while it runs

The session of a job collects what its operations have told it: the transaction it works on, the
facts it read, the policy's answer, the row it inserted, the credential it issued. `custody` is the
protocol that says which operations a job may perform in a session. It carries the order of the
pipeline: what the policy judges is read before the policy answers, a row is inserted once and after
the policy answered, a credential is issued only on the job's own allowed row, a charge is sent once
and only under that credential, and a state is committed only on a transition that was checked
against the state read before.
-/

set_option autoImplicit false

namespace AgentPay.Gateway

open AgentPay.Library AgentPay.Policies

/-- A reading of the settled spend. -/
structure SpendRead where
  userId : String
  readAt : Time
  since : Time
  amount : ℤ

/-- A reading of a sliding window. -/
structure VelocityRead where
  key : String
  readAt : Time
  since : Time
  count : ℕ

/-- What a job has learned and done. -/
structure Session where
  intent : Option PaymentIntent := none
  lastNow : Time := 0
  drawn : List ℕ := []
  lastGet : Option (String × Option Stored) := none
  txn : Option CanonicalTransaction := none
  policy : Option (Option SpendingPolicy) := none
  spent : Option SpendRead := none
  velocity : Option VelocityRead := none
  opa : Option (PolicyInput × OpaAnswer) := none
  row : Option Transaction := none
  issued : Option AuthorizationClaims := none
  submitted : Bool := false
  charged : Bool := false
  chargeReply : Option (ℕ × ProviderReply) := none
  unknowns : List ℕ := []
  queryReply : Option (ℕ × ProviderReply) := none
  stale : Option (Time × List ℕ) := none
  read : Option (ℕ × PaymentState) := none

/-- The session after an answer. -/
def Session.next (s : Session) : (op : Op) → Except Exn op.Val → Session
  | .now, .ok t => { s with lastNow := t }
  | .uuid4, .ok n => { s with drawn := n :: s.drawn }
  | .get key, .ok v => { s with lastGet := some (key, v) }
  | .analyze txn, _ => { s with txn := some txn }
  | .getPolicy _, .ok p => { s with policy := some p }
  | .sumSettled userId since, .ok n => { s with spent := some ⟨userId, s.lastNow, since, n⟩ }
  | .zcount key since, .ok n => { s with velocity := some ⟨key, s.lastNow, since, n⟩ }
  | .evaluatePolicy input, .ok a => { s with opa := some (input, a) }
  | .insertTransaction row, .ok _ => { s with row := some row }
  | .signAuthorization claims, .ok _ => { s with issued := some claims }
  | .commitState _ .submitted _ _, .ok _ => { s with submitted := true }
  | .sendCharge _ _, _ => { s with charged := true }
  | .awaitCharge id, .ok r => { s with chargeReply := some (id, r) }
  | .selectUnknown _, .ok l => { s with unknowns := l.map Prod.fst }
  | .awaitQuery id, .ok r => { s with queryReply := some (id, r) }
  | .selectStale now, .ok l => { s with stale := some (now, l) }
  | .getTransaction id, .ok r => { s with read := r.map fun row => (id, row.state) }
  | _, _ => s

/-- The verdict the policy's answer amounts to. -/
def Session.verdict (s : Session) : Option PDPResult := s.opa.map fun p => readAnswer p.1 p.2

/-! ## What the provider said -/

/-- The status of a reply whose body is an object. -/
def ProviderReply.status? (r : ProviderReply) : Option Json :=
  match r.json with
  | some (.obj fields) => some ((Json.field? "status" fields).getD .null)
  | _ => none

/-- A reply to a charge that the gateway reads as a failure. -/
def ProviderReply.RefusesCharge (r : ProviderReply) : Prop :=
  400 ≤ r.statusCode ∨ ∃ status, r.status? = some status ∧ Json.isText "confirmed" status = false

/-- A reply to a query that the gateway reads as a failure. -/
def ProviderReply.DeniesCharge (r : ProviderReply) : Prop :=
  r.statusCode = 404 ∨ r.statusCode < 400 ∧
    ∃ status, r.status? = some status ∧ hashableIn ["failed", "declined"] status = .ok true

/-! ## The protocol -/

/-- The context is that of the readings of the session. -/
def ContextRead (s : Session) (txn : CanonicalTransaction) (ctx : PolicyContext) : Prop :=
  ∃ policy merchant agent spent velocity, s.policy = some policy ∧
    s.spent = some spent ∧ spent.userId = txn.userId ∧
    s.velocity = some velocity ∧ velocity.key = velocityKey txn.userId txn.agentId ∧
    velocity.since = velocity.readAt - seconds velocityWindow ∧
    ctx = contextOf txn policy merchant agent spent.amount velocity.count

/-- The evidence marshalled for the policy consists of what the session read. -/
structure Marshalled (s : Session) (e : Evidence) : Prop where
  txn : s.txn = some e.txn
  duplicate : e.duplicate.idempotencyConflict = false → e.duplicate.fingerprintConflict = false →
    ∃ seen, s.lastGet = some (fingerprintKey e.txn.fingerprint, seen) ∧
      slotTaken e.txn seen = false
  context : ContextRead s e.txn e.ctx
  approval : e.approval.present = true → e.approval.valid = true → ∃ claims,
    e.txn.approvalToken = some (.signed claims) ∧ findingOfClaims claims = some e.approval

/-- The canonical transaction is that of the intent, under an identifier the job drew. -/
structure Canonical (s : Session) (txn : CanonicalTransaction) (intent : PaymentIntent) :
    Prop where
  ofIntent : s.intent = some intent
  userId : txn.userId = intent.userId
  agentId : txn.agentId = intent.agentId
  idempotencyKey : txn.idempotencyKey = intent.idempotencyKey
  amount : txn.amount = intent.amount.amount
  approvalToken : txn.approvalToken = intent.approvalToken
  drawn : txn.paymentAuthorizationId ∈ s.drawn

theorem Canonical.congr {s s' : Session} {txn : CanonicalTransaction} {intent : PaymentIntent}
    (hc : Canonical s txn intent) (hintent : s'.intent = s.intent)
    (hdrawn : ∀ n ∈ s.drawn, n ∈ s'.drawn) : Canonical s' txn intent :=
  ⟨hintent.trans hc.ofIntent, hc.userId, hc.agentId, hc.idempotencyKey, hc.amount,
    hc.approvalToken, hdrawn _ hc.drawn⟩

/-- The row a job may insert: that of its transaction under the policy's verdict, created at the
instant it read last. -/
def Insertable (s : Session) (row : Transaction) : Prop :=
  s.row = none ∧ ∃ txn verdict risk, s.txn = some txn ∧ s.verdict = some verdict ∧
    row = newRow txn verdict risk s.lastNow

/-- The credential a job may issue: for its own allowed row. -/
def Issuable (s : Session) (claims : AuthorizationClaims) : Prop :=
  s.issued = none ∧ ∃ row txn, s.row = some row ∧ row.decision = .allow ∧ s.txn = some txn ∧
    claims.sub = row.userId ∧ claims.paymentAuthorizationId = row.paymentAuthorizationId ∧
    claims.merchantId = txn.merchantId ∧ claims.amount = txn.amount.str ∧
    claims.currency = txn.currency ∧ claims.cartHash = txn.cartHash

/-- The charge a job may send: once, for its own submitted row and under its own credential. -/
def Chargeable (s : Session) (token : AuthorizationClaims) (body : ChargeRequest) : Prop :=
  s.charged = false ∧ s.submitted = true ∧ s.issued = some token ∧ ∃ row txn, s.row = some row ∧
    s.txn = some txn ∧ body = chargeRequest txn ∧
    token.sub = row.userId ∧ token.paymentAuthorizationId = row.paymentAuthorizationId ∧
    body.idempotencyKey = row.idempotencyKey ∧
    body.paymentAuthorizationId = row.paymentAuthorizationId

/-- The job's own row has the id, and its credential is issued. -/
def OwnsIssued (s : Session) (id : ℕ) : Prop :=
  s.issued.isSome = true ∧ ∃ row, s.row = some row ∧ row.paymentAuthorizationId = id ∧
    row.decision = .allow

/-- Why a job moves a payment to a state. -/
def Warranted (s : Session) (id : ℕ) : PaymentState → Prop
  | .created => False
  | .authorized | .submitted => OwnsIssued s id ∧ s.charged = false
  | .timeout | .unknown => OwnsIssued s id ∧ s.charged = true
  | .confirmed => True
  | .failed =>
      (∃ row, s.row = some row ∧ row.paymentAuthorizationId = id ∧ row.decision = .block) ∨
      (OwnsIssued s id ∧ s.charged = true ∧
        ∃ r, s.chargeReply = some (id, r) ∧ r.RefusesCharge) ∨
      (id ∈ s.unknowns ∧ ∃ r, s.queryReply = some (id, r) ∧ r.DeniesCharge)
  | .expired => ∃ now stale, s.stale = some (now, stale) ∧ id ∈ stale

/-- The operations a job may perform. -/
def Session.guard (s : Session) : Op → Prop
  | .get _ | .getPolicy _ | .zcount .. => s.opa = none
  | .analyze txn => s.opa = none ∧ s.txn = none ∧ ∃ intent, Canonical s txn intent
  | .sumSettled _ since => s.opa = none ∧ since = s.lastNow - seconds daySeconds
  | .evaluatePolicy input => s.opa = none ∧ ∃ e, input = buildInput e ∧ Marshalled s e
  | .insertTransaction row => Insertable s row
  | .signAuthorization claims => Issuable s claims
  | .commitState id target _ _ =>
      (∃ current, s.read = some (id, current) ∧ target ∈ validTransitions current) ∧
        Warranted s id target
  | .sendCharge token body => Chargeable s token body
  | .sendQuery id => id ∈ s.unknowns
  | .set key (.paymentAuthorizationId id) _ => OwnsIssued s id ∧
      ∃ txn, s.txn = some txn ∧ key = fingerprintKey txn.fingerprint ∧
        id = txn.paymentAuthorizationId
  | .set _ (.lockToken _) _ => False
  | _ => True

/-- The protocol of a job. -/
def custody : Protocol Op Op.Val Exn Session where
  guard := Session.guard
  next := Session.next

/-- The session a job starts with. -/
def Job.session : Job → Session
  | paymentIntent intent _ _ => { intent := some intent }
  | _ => {}

/-- A job starts with an intent at most. -/
theorem Job.session_eq (job : Job) : job.session = { intent := job.session.intent } := by
  cases job <;> rfl

/-- What a response says about the session it ends. -/
def Answered : Except Exn Response → Session → Prop
  | .ok (.decision r), s => r.replayed = false → r.decision = .allow →
      ∃ verdict row, s.verdict = some verdict ∧ s.row = some row ∧ verdict.decision = .allow ∧
        verdict.reasonCodes = r.reasonCodes ∧
        row.paymentAuthorizationId = r.paymentAuthorizationId
  | _, _ => True

/-- The session of a thread. -/
abbrev sessionOf (c : Config) (tid : ℕ) : Option Session := c.session custody Job.session tid

end AgentPay.Gateway
