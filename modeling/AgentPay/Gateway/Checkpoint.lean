import AgentPay.Gateway.AuditLog
import AgentPay.Library.Interleaving

/-!
# Checkpoints of the audit log

The anchor of the chain head in a store of its own, the comparison with the latest anchor, and the
two endpoints that lay anchors. Each statement to a database is one operation, so appends may land
between the count and the head of `chain_head`. An append stands for one serialised `record_event`:
it links a row to the head of the table.
-/

set_option autoImplicit false

namespace AgentPay.Gateway

open AgentPay.Library

/-- A row of the checkpoint store. -/
structure Anchor where
  chainEvents : ℕ
  headHash : String
deriving DecidableEq

/-- The audit table in the order of `seq`, the checkpoint store, newest first, and the number of
event ids given out so far. -/
structure AuditStore where
  rows : List AuditRow := []
  anchors : List Anchor := []
  issued : ℕ := 0

/-- The statements to the two databases. -/
inductive AuditOp where
  | selectEvents (limit : Option ℕ)
  | countEvents
  | headEvent
  | latestAnchor
  | insertAnchor (anchor : Anchor)

/-- The values the statements answer with. -/
abbrev AuditOp.Val : AuditOp → Type
  | selectEvents _ => List AuditRow
  | countEvents => ℕ
  | headEvent => Option String
  | latestAnchor => Option Anchor
  | insertAnchor _ => Unit

/-- A coroutine over the two databases. -/
abbrev AuditPy (α : Type) := Prog AuditOp AuditOp.Val Exn α

/-- Suspension at a statement. -/
abbrev query (op : AuditOp) : AuditPy op.Val := Prog.perform op

/-! ## The two databases -/

/-- How a statement ends; a failed insertion may have been committed. -/
inductive AuditOutcome where
  | ok
  | fault (e : Exn) (applied : Bool)

/-- The statement takes effect. -/
def AuditOutcome.applies : AuditOutcome → Bool
  | .ok => true
  | .fault _ applied => applied

namespace AuditStore

/-- The state change of a statement. -/
def apply (s : AuditStore) : AuditOp → AuditStore
  | .insertAnchor anchor => { s with anchors := anchor :: s.anchors }
  | _ => s

/-- The answer of a statement that completes. -/
def value (s : AuditStore) : (op : AuditOp) → op.Val
  | .selectEvents limit => limited limit s.rows
  | .countEvents => s.rows.length
  | .headEvent => s.rows.getLast?.map AuditRow.eventHash
  | .latestAnchor => s.anchors.head?
  | .insertAnchor _ => ()

/-- One statement under an outcome. -/
def perform (s : AuditStore) (op : AuditOp) : AuditOutcome → AuditStore × Except Exn op.Val
  | .ok => (s.apply op, .ok (s.value op))
  | .fault e applied => (if applied then s.apply op else s, .error e)

/-- The row linked to the head of the table. -/
def linkRow (R : Runtime) (rows : List AuditRow) (row : AuditRow) : AuditRow :=
  { row with
    prevHash := Gateway.headHash rows
    eventHash := computeHash R (row.body R) (Gateway.headHash rows) }

/-- A serialised `record_event`: the row gets an event id no other event has. -/
def append (R : Runtime) (s : AuditStore) (row : AuditRow) : AuditStore :=
  { s with
    rows := s.rows ++ [linkRow R s.rows { row with eventId := eventText s.issued }]
    issued := s.issued + 1 }

end AuditStore

/-! ## The programs -/

/-- `verify_chain`. -/
def verifyChainOf (R : Runtime) (limit : Option ℕ) : AuditPy ChainReport := do
  let events ← query (.selectEvents limit)
  pure (verifyRows R events.length genesisHash events)

/-- `chain_head`: the number of events and the head hash. -/
def chainHead : AuditPy (ℕ × String) := do
  let count ← query .countEvents
  let head ← query .headEvent
  pure (count, orGenesis head)

/-- `anchor_checkpoint`, when a checkpoint store is configured: whether the head was anchored. -/
def anchorCheckpoint (headHash : String) (chainEvents : ℕ) : AuditPy Bool :=
  Prog.recover
    (do
      query (.insertAnchor { chainEvents, headHash })
      pure true)
    fun e => if e.isException then pure false else Prog.throw e

/-- The answer of `verify_against_checkpoints`. -/
structure AnchorReport where
  «matches» : Bool
  anchoredHead : String
  anchoredEvents : ℕ
  recomputedPrefixHead : Option String
  prefixChainValid : Bool

/-- The comparison of an anchor with the recomputed prefix. -/
def compareAnchor (latest : Anchor) (result : ChainReport) : AnchorReport :=
  match result with
  | .valid _ head => {
      «matches» := decide (head = latest.headHash)
      anchoredHead := latest.headHash
      anchoredEvents := latest.chainEvents
      recomputedPrefixHead := some head
      prefixChainValid := true }
  | .broken .. => {
      «matches» := false
      anchoredHead := latest.headHash
      anchoredEvents := latest.chainEvents
      recomputedPrefixHead := none
      prefixChainValid := false }

/-- `verify_against_checkpoints`; nothing when no checkpoint is anchored yet. -/
def verifyAgainstCheckpoints (R : Runtime) : AuditPy (Option AnchorReport) := do
  let latest ← query .latestAnchor
  match latest with
  | none => pure none
  | some latest => do
      let result ← verifyChainOf R (some latest.chainEvents)
      pure (some (compareAnchor latest result))

/-- The answer of `GET /v1/audit/verify`. -/
structure VerifyReport where
  result : ChainReport
  events : ℕ
  headHash : String
  checkpointVerification : Option AnchorReport
  anchored : Bool

/-- `audit_verify`. -/
def auditVerify (R : Runtime) : AuditPy VerifyReport := do
  let result ← verifyChainOf R none
  let head ← chainHead
  let checkpointVerification ← verifyAgainstCheckpoints R
  let anchored ← anchorCheckpoint head.2 head.1
  pure { result, events := head.1, headHash := head.2, checkpointVerification, anchored }

/-- `audit_checkpoint`. -/
def auditCheckpoint : AuditPy Bool := do
  let head ← chainHead
  anchorCheckpoint head.2 head.1

end AgentPay.Gateway
