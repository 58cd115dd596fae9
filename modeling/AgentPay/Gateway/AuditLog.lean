import AgentPay.Gateway.Audit
import AgentPay.Library.HashChain
import AgentPay.Library.JsonReading

/-!
# The audit table and its verification

The rows of the audit table as the database gives them back, and `verify_chain` over them. A stored
instant comes back without a zone or with one, and a document up to the order of its keys; the text
that is hashed does not see the difference. Rows are listed in the order of their `seq`.
-/

set_option autoImplicit false

namespace AgentPay.Gateway

open AgentPay.Library

/-- A datetime of the database: a reading of the clock in UTC without a zone, or a reading with its
offset to UTC, whose instant is in the range of datetimes. -/
inductive Timestamp where
  | naive (wall : Time)
  | aware (wall : Time) (offset : ℤ) (inRange : 0 ≤ (wall : ℤ) - offset)

/-- The instant of a datetime. -/
def Timestamp.utc : Timestamp → Time
  | naive wall => wall
  | aware wall offset _ => ((wall : ℤ) - offset).toNat

/-- `canonical_timestamp`. -/
def canonicalTimestamp (R : Runtime) (t : Timestamp) : String := R.isoTime t.utc

/-- A row of the audit table. -/
structure AuditRow where
  seq : ℕ
  eventId : String
  eventType : String
  paymentAuthorizationId : Option String
  userId : Option String
  agentId : Option String
  decision : Option String
  reasonCodes : Json
  risk : Json
  policyVersion : Option String
  payload : Json
  prevHash : String
  eventHash : String
  createdAt : Timestamp

/-- `_body` of a row. -/
def AuditRow.body (R : Runtime) (e : AuditRow) : Json :=
  .obj [
    ("event_id", .str e.eventId),
    ("event_type", .str e.eventType),
    ("created_at", .str (canonicalTimestamp R e.createdAt)),
    ("payment_authorization_id", optionalStr e.paymentAuthorizationId),
    ("user_id", optionalStr e.userId),
    ("agent_id", optionalStr e.agentId),
    ("decision", optionalStr e.decision),
    ("reason_codes", e.reasonCodes),
    ("risk", e.risk),
    ("policy_version", optionalStr e.policyVersion),
    ("payload", e.payload)]

/-- The answer of `verify_chain`. -/
inductive ChainReport where
  | valid (eventsChecked : ℕ) (headHash : String)
  | broken (eventsChecked brokenAtSeq : ℕ) (brokenEventId expectedHash storedHash : String)
deriving DecidableEq

/-- The loop of `verify_chain`. -/
def verifyRows (R : Runtime) (eventsChecked : ℕ) : String → List AuditRow → ChainReport
  | prevHash, [] => .valid eventsChecked prevHash
  | prevHash, e :: rows =>
      let expected := computeHash R (e.body R) prevHash
      if e.prevHash ≠ prevHash ∨ e.eventHash ≠ expected then
        .broken eventsChecked e.seq e.eventId expected e.eventHash
      else verifyRows R eventsChecked e.eventHash rows

/-- The rows a limit selects; zero is no limit. -/
def limited (limit : Option ℕ) (rows : List AuditRow) : List AuditRow :=
  match limit with
  | some n => if n = 0 then rows else rows.take n
  | none => rows

/-- `verify_chain`. -/
def verifyChain (R : Runtime) (limit : Option ℕ) (rows : List AuditRow) : ChainReport :=
  verifyRows R (limited limit rows).length genesisHash (limited limit rows)

/-- `chain_head`: the head hash of the rows. -/
def headHash (rows : List AuditRow) : String := orGenesis (rows.getLast?.map AuditRow.eventHash)

/-- The linking of the audit table. -/
def auditLinks (R : Runtime) : Links AuditRow String where
  link e prevHash := computeHash R (e.body R) prevHash
  prev := AuditRow.prevHash
  hash := AuditRow.eventHash

section Verification

variable {R : Runtime} {n : ℕ} {h : String} {rows : List AuditRow}

/-- The loop reports the first break of the chain. -/
theorem verifyRows_eq (R : Runtime) (n : ℕ) (h : String) (rows : List AuditRow) :
    verifyRows R n h rows = match (auditLinks R).firstBreak h rows with
      | none => .valid n ((auditLinks R).head h rows)
      | some (e, prevHash) =>
          .broken n e.seq e.eventId (computeHash R (e.body R) prevHash) e.eventHash := by
  induction rows generalizing h with
  | nil => rfl
  | cons e rows ih =>
      rw [verifyRows, Links.firstBreak, ih]
      by_cases hlinked : e.prevHash = h ∧ e.eventHash = computeHash R (e.body R) h
      · rw [if_neg (by rw [hlinked.1]; simp [← hlinked.2]), if_neg]
        · rfl
        · rintro (hne | hne)
          · exact hne hlinked.1
          · exact hne hlinked.2
      · have hor : e.prevHash ≠ h ∨ e.eventHash ≠ computeHash R (e.body R) h := by
          rwa [not_and_or] at hlinked
        have hbreak : (auditLinks R).prev e ≠ h ∨ (auditLinks R).hash e ≠ (auditLinks R).link e h :=
          hor
        rw [if_pos hor, if_pos hbreak]

/-- The rows are accepted exactly when they are a chain. -/
theorem verifyChain_valid_iff {limit : Option ℕ} {head : String} :
    verifyChain R limit rows = .valid n head ↔ (limited limit rows).length = n ∧
      (auditLinks R).Chained genesisHash (limited limit rows) ∧
        (auditLinks R).head genesisHash (limited limit rows) = head := by
  rw [verifyChain, verifyRows_eq, ← Links.firstBreak_eq_none]
  cases (auditLinks R).firstBreak genesisHash (limited limit rows) with
  | none => simp
  | some p => simp

/-- The head of a chain is the hash of its last row. -/
theorem head_eq (R : Runtime) (h : String) (rows : List AuditRow) :
    (auditLinks R).head h rows = (rows.getLast?.map AuditRow.eventHash).getD h := by
  induction rows generalizing h with
  | nil => rfl
  | cons e rows ih =>
      rw [Links.head, ih, List.getLast?_cons]
      cases rows.getLast? <;> rfl

/-! ## What a hash says -/

/-- The rows agree on every field that is hashed. -/
structure SameHashedFields (R : Runtime) (a b : AuditRow) : Prop where
  eventId : a.eventId = b.eventId
  eventType : a.eventType = b.eventType
  createdAt : canonicalTimestamp R a.createdAt = canonicalTimestamp R b.createdAt
  paymentAuthorizationId : a.paymentAuthorizationId = b.paymentAuthorizationId
  userId : a.userId = b.userId
  agentId : a.agentId = b.agentId
  decision : a.decision = b.decision
  reasonCodes : Json.canon a.reasonCodes = Json.canon b.reasonCodes
  risk : Json.canon a.risk = Json.canon b.risk
  policyVersion : a.policyVersion = b.policyVersion
  payload : Json.canon a.payload = Json.canon b.payload

theorem optionalStr_injective {a b : Option String}
    (h : Json.canon (optionalStr a) = Json.canon (optionalStr b)) : a = b := by
  cases a <;> cases b <;> simp [optionalStr, Json.canon] at h ⊢
  exact h

/-- Rows with one body agree on every field. -/
theorem sameHashedFields_of_body {a b : AuditRow}
    (h : Json.canon (a.body R) = Json.canon (b.body R)) : SameHashedFields R a b := by
  have hfield := Json.field?_of_canon (by simp) (by simp) h
  refine ⟨?_, ?_, ?_, ?_, ?_, ?_, ?_, ?_, ?_, ?_, ?_⟩
  · simpa [Json.field?, Json.canon] using hfield "event_id"
  · simpa [Json.field?, Json.canon] using hfield "event_type"
  · simpa [Json.field?, Json.canon] using hfield "created_at"
  · exact optionalStr_injective (by simpa [Json.field?] using hfield "payment_authorization_id")
  · exact optionalStr_injective (by simpa [Json.field?] using hfield "user_id")
  · exact optionalStr_injective (by simpa [Json.field?] using hfield "agent_id")
  · exact optionalStr_injective (by simpa [Json.field?] using hfield "decision")
  · simpa [Json.field?] using hfield "reason_codes"
  · simpa [Json.field?] using hfield "risk"
  · exact optionalStr_injective (by simpa [Json.field?] using hfield "policy_version")
  · simpa [Json.field?] using hfield "payload"

/-- Rows that agree on every field have one body. -/
theorem SameHashedFields.body {a b : AuditRow} (h : SameHashedFields R a b) :
    Json.canon (a.body R) = Json.canon (b.body R) := by
  simp only [AuditRow.body, Json.canon, Json.canonFields, h.eventId, h.eventType, h.createdAt,
    h.paymentAuthorizationId, h.userId, h.agentId, h.decision, h.reasonCodes, h.risk,
    h.policyVersion, h.payload]

variable (hsha : Function.Injective R.sha256) (hfloat : Json.FloatText R.floatRepr)

include hsha hfloat

/-- **A hash determines the hashed fields of its row and the hash before it.** -/
theorem hash_determines {a b : AuditRow} {h k : String}
    (heq : computeHash R (a.body R) h = computeHash R (b.body R) k) :
    SameHashedFields R a b ∧ h = k := by
  obtain ⟨hbody, hprev⟩ := Json.obj_append_unique hfloat (hsha heq)
  exact ⟨sameHashedFields_of_body hbody, hprev⟩

omit hsha hfloat in
theorem SameHashedFields.computeHash {a b : AuditRow} (h : SameHashedFields R a b) (k : String) :
    computeHash R (a.body R) k = computeHash R (b.body R) k := by
  rw [Gateway.computeHash, Gateway.computeHash, Json.dumps_of_canon _ _ _ h.body]

end Verification

/-! ## Writing and reading back -/

/-- The row of an inserted event, its instant read back without a zone. -/
def AuditEvent.toRow (seq : ℕ) (e : AuditEvent) : AuditRow where
  seq := seq
  eventId := eventText e.eventId
  eventType := e.eventType
  paymentAuthorizationId := e.paymentAuthorizationId.map paymentAuthorizationText
  userId := e.userId
  agentId := e.agentId
  decision := e.decision
  reasonCodes := .arr (e.reasonCodes.map .str)
  risk := e.risk
  policyVersion := e.policyVersion
  payload := e.payload
  prevHash := e.prevHash
  eventHash := e.eventHash
  createdAt := .naive e.createdAt

/-- A row the database may give back for an event: the instant without a zone or in any zone, and
each document up to the order of its keys. -/
structure ReadsBack (e : AuditEvent) (row : AuditRow) : Prop where
  eventId : row.eventId = eventText e.eventId
  eventType : row.eventType = e.eventType
  createdAt : row.createdAt.utc = e.createdAt
  paymentAuthorizationId :
    row.paymentAuthorizationId = e.paymentAuthorizationId.map paymentAuthorizationText
  userId : row.userId = e.userId
  agentId : row.agentId = e.agentId
  decision : row.decision = e.decision
  reasonCodes : Json.canon row.reasonCodes = Json.canon (.arr (e.reasonCodes.map .str))
  risk : Json.canon row.risk = Json.canon e.risk
  policyVersion : row.policyVersion = e.policyVersion
  payload : Json.canon row.payload = Json.canon e.payload
  prevHash : row.prevHash = e.prevHash
  eventHash : row.eventHash = e.eventHash

theorem readsBack_toRow (seq : ℕ) (e : AuditEvent) : ReadsBack e (e.toRow seq) :=
  ⟨rfl, rfl, rfl, rfl, rfl, rfl, rfl, rfl, rfl, rfl, rfl, rfl, rfl⟩

/-- What is read back is hashed like what was written. -/
theorem ReadsBack.agree (R : Runtime) {e : AuditEvent} {row : AuditRow} (h : ReadsBack e row)
    (seq : ℕ) : (auditLinks R).Agree (SameHashedFields R) (e.toRow seq) row := by
  refine ⟨⟨h.eventId.symm, h.eventType.symm, ?_, h.paymentAuthorizationId.symm, h.userId.symm,
    h.agentId.symm, h.decision.symm, h.reasonCodes.symm, h.risk.symm, h.policyVersion.symm,
    h.payload.symm⟩, h.prevHash.symm, h.eventHash.symm⟩
  rw [canonicalTimestamp, canonicalTimestamp, h.createdAt]
  rfl

/-- The inserted event is hashed as it will be read back. -/
theorem computeHash_toRow (R : Runtime) (seq eventId : ℕ) (createdAt : Time) (policyVersion : String)
    (f : EventFields) (prevHash eventHash : String) :
    computeHash R (eventBody R eventId createdAt policyVersion f) prevHash =
      (auditLinks R).link (AuditEvent.toRow seq {
        eventId
        eventType := f.eventType
        paymentAuthorizationId := f.paymentAuthorizationId
        userId := f.userId
        agentId := f.agentId
        decision := f.decision
        reasonCodes := f.reasonCodes
        risk := f.risk
        policyVersion := some policyVersion
        payload := f.payload
        prevHash
        eventHash
        createdAt }) prevHash := rfl

end AgentPay.Gateway
