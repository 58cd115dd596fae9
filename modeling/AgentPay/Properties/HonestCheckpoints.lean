import AgentPay.Properties.SealedHistory

/-!
# Honest appends and checkpoints

Any number of calls of the two audit endpoints, interleaved with appends statement by statement. The
count and the head of an anchor come from two statements, and a limit of zero selects the whole
table; where an append lands between neither the two statements nor an anchor of the empty log and
its comparison, every verification matches (`honest_checkpoints_match`).
-/

set_option autoImplicit false

namespace AgentPay.Properties

open AgentPay.Library AgentPay.Library.Machine AgentPay.Gateway

/-! ## The machine of audit calls -/

/-- A call of an audit endpoint. -/
inductive AuditCall where
  | verify
  | checkpoint

/-- What an audit endpoint answers with. -/
inductive AuditAnswer where
  | verified (report : VerifyReport)
  | anchored (stored : Bool)

/-- Concurrent calls of the audit endpoints; the environment appends events. -/
def audits (R : Runtime) :
    Machine AuditStore AuditCall AuditRow AuditOutcome AuditOp AuditOp.Val Exn AuditAnswer where
  start
    | .verify => do
        let report ← auditVerify R
        pure (.verified report)
    | .checkpoint => do
        let stored ← auditCheckpoint
        pure (.anchored stored)
  perform s op o := some (s.perform op o)
  environment s row := s.append R row

/-- Configurations of concurrent audit calls. -/
abbrev AuditConfig :=
  Machine.Config AuditStore AuditCall AuditOutcome AuditOp AuditOp.Val Exn AuditAnswer

/-- The comparison with the newest anchor a finished verification reports. -/
def reported (c : AuditConfig) (tid : ℕ) : Option AnchorReport :=
  match c.threads[tid]? with
  | some ⟨_, .ret (.ok (.verified report))⟩ => report.checkpointVerification
  | _ => none

/-- What a call has read: the number of events, the head with the number read before it, the newest
anchor, and what the comparison with it says. -/
structure Readings where
  count : Option ℕ := none
  head : Option Anchor := none
  latest : Option Anchor := none
  compared : Option AnchorReport := none

/-- The protocol of an audit call: it anchors the head it has read, and selects as many rows as the
newest anchor counts. -/
def auditing (R : Runtime) : Protocol AuditOp AuditOp.Val Exn Readings where
  guard s op := match op with
    | .selectEvents (some n) => ∃ a, s.latest = some a ∧ n = a.chainEvents
    | .insertAnchor a => s.head = some a
    | _ => True
  next s op answer := match op, answer with
    | .countEvents, .ok n => { s with count := some n }
    | .headEvent, .ok head =>
        { s with head := s.count.map fun n => ⟨n, orGenesis head⟩ }
    | .latestAnchor, .ok latest => { s with latest }
    | .selectEvents (some _), .ok rows =>
        { s with compared := s.latest.map fun a =>
            compareAnchor a (verifyRows R rows.length genesisHash rows) }
    | _, _ => s

/-- The number of events a call has read. -/
def readCount (R : Runtime) (c : AuditConfig) (tid : ℕ) : Option ℕ :=
  (c.session (auditing R) (fun _ => {}) tid).bind Readings.count

/-- No append lands between the two statements of `chain_head`, and none between an anchor of the
empty log and a comparison with it. -/
def unmoved (R : Runtime) :
    Discipline AuditStore AuditCall AuditRow AuditOutcome AuditOp AuditOp.Val Exn AuditAnswer where
  initial s := s = {}
  run c ev := match ev.op with
    | .headEvent => readCount R c ev.tid = some c.world.rows.length
    | .selectEvents (some n) => n = 0 → c.world.rows = []
    | _ => True

/-! ## The programs follow the protocol -/

section Protocol

variable {R : Runtime}

/-- What a session knows when a verification has ended. -/
def Told (report : Option AnchorReport) (s : Readings) : Prop :=
  ∀ r, report = some r → s.compared = some r

theorem follows_anchorCheckpoint {a : Anchor} {s : Readings} (hs : s.head = some a) :
    (anchorCheckpoint a.headHash a.chainEvents).Follows (auditing R) s (fun _ s' => s' = s) := by
  rw [anchorCheckpoint, Prog.follows_recover]
  refine Prog.Follows.perform (by exact hs) (fun _ => rfl) fun e => ?_
  change Prog.Follows (auditing R) (if e.isException then _ else _) _ _
  split <;> rfl

theorem follows_chainHead (s : Readings) : chainHead.Follows (auditing R) s (Prog.Returns
    fun head s' => s'.head = some ⟨head.1, head.2⟩) := by
  refine Prog.Follows.perform_returns trivial fun n => ?_
  exact Prog.Follows.perform_returns trivial fun head => rfl

theorem follows_verifyAgainst (s : Readings) :
    (verifyAgainstCheckpoints R).Follows (auditing R) s (Prog.Returns
      fun report s' => Told report s' ∧ s'.head = s.head) := by
  refine Prog.Follows.perform_returns trivial fun latest => ?_
  cases latest with
  | none =>
      refine ⟨fun r hr => ?_, rfl⟩
      cases hr
  | some a =>
      refine Prog.Follows.bind_returns (R := fun result s' => s'.head = s.head ∧
        s'.compared = some (compareAnchor a result)) ?_ fun result s' hs' => ?_
      · exact Prog.Follows.perform_returns ⟨a, rfl, rfl⟩ fun rows => ⟨rfl, rfl⟩
      · refine ⟨fun r hr => ?_, hs'.1⟩
        cases hr
        exact hs'.2

/-- A call that has ended: a verification has told what its comparison says. -/
def Ended : AuditCall → Except Exn AuditAnswer → Readings → Prop :=
  fun _ => Prog.Returns fun answer s => match answer with
    | .verified report => Told report.checkpointVerification s
    | .anchored _ => True

theorem follows_audits (R : Runtime) (call : AuditCall) :
    ((audits R).start call).Follows (auditing R) {} (Ended call) := by
  cases call with
  | verify =>
      refine Prog.Follows.bind_returns
        (R := fun (report : VerifyReport) s => Told report.checkpointVerification s) ?_
        fun report s hs => hs
      refine Prog.Follows.bind_returns (R := fun _ s => s = {}) ?_ fun result s hs => ?_
      · exact Prog.Follows.perform_returns trivial fun rows => rfl
      refine (follows_chainHead s).bind_returns fun head s hs => ?_
      refine (follows_verifyAgainst s).bind_returns fun report s' hs' => ?_
      have hstored : (anchorCheckpoint head.2 head.1).Follows (auditing R) s'
          (Prog.Returns fun _ s'' => s'' = s') :=
        (follows_anchorCheckpoint (hs'.2.trans hs)).mono fun r s'' h => by cases r <;> trivial
      refine hstored.bind_returns fun anchored s'' hs'' => ?_
      rw [hs'']
      exact hs'.1
  | checkpoint =>
      refine Prog.Follows.bind_returns (R := fun _ _ => True) ?_ fun stored s hs => trivial
      refine (follows_chainHead {}).bind_returns fun head s hs => ?_
      exact (follows_anchorCheckpoint hs).mono fun r s' _ => by cases r <;> trivial

end Protocol

/-! ## What is kept -/

/-- The rows are a chain, and every anchor is one of its first rows. -/
structure KeptAnchors (R : Runtime) (s : AuditStore) : Prop where
  chained : (auditLinks R).Chained genesisHash s.rows
  anchored : ∀ a ∈ s.anchors, Anchors a s.rows

/-- What a call has read is an anchor of the first rows, and its comparison matches. -/
structure Reads (rows : List AuditRow) (s : Readings) : Prop where
  head : ∀ a, s.head = some a → Anchors a rows
  latest : ∀ a, s.latest = some a → Anchors a rows
  compared : ∀ r, s.compared = some r → r.«matches» = true

section Steps

variable {R : Runtime} {s : AuditStore} {r : Readings}

theorem Reads.append {rows more : List AuditRow} (h : Reads rows r) : Reads (rows ++ more) r :=
  ⟨fun a ha => (h.head a ha).append, fun a ha => (h.latest a ha).append, h.compared⟩

/-- A statement leaves the audit table alone. -/
theorem perform_rows (s : AuditStore) (op : AuditOp) (o : AuditOutcome) :
    (s.perform op o).1.rows = s.rows := by
  have happly : (s.apply op).rows = s.rows := by cases op <;> rfl
  cases o with
  | ok => exact happly
  | fault e applied =>
      rw [AuditStore.perform]
      cases applied
      · rfl
      · exact happly

/-- The insertion of an anchor that was read keeps the anchors. -/
theorem KeptAnchors.perform (h : KeptAnchors R s) (hr : Reads s.rows r) {op : AuditOp} (o : AuditOutcome)
    (hguard : (auditing R).guard r op) : KeptAnchors R (s.perform op o).1 := by
  refine ⟨by rw [perform_rows]; exact h.chained, ?_⟩
  have hanchors : ∀ a ∈ (s.apply op).anchors, Anchors a s.rows := by
    cases op
    case insertAnchor a => exact List.forall_mem_cons.2 ⟨hr.head a hguard, h.anchored⟩
    all_goals exact h.anchored
  rw [perform_rows]
  cases o with
  | ok => exact hanchors
  | fault e applied =>
      cases applied
      · exact h.anchored
      · exact hanchors

variable (hdigest : ChainDigest R.sha256)

include hdigest

/-- A statement that finds the table unmoved reads an anchor of the first rows, or compares with one
that matches. -/
theorem Reads.perform (h : KeptAnchors R s) (hr : Reads s.rows r) {op : AuditOp} (o : AuditOutcome)
    (hguard : (auditing R).guard r op) (hcount : op = .headEvent → r.count = some s.rows.length)
    (hempty : op = .selectEvents (some 0) → s.rows = []) :
    Reads s.rows ((auditing R).next r op (s.perform op o).2) := by
  cases o with
  | fault e applied =>
      cases op with
      | selectEvents limit => cases limit <;> exact hr
      | _ => exact hr
  | ok =>
      cases op with
      | countEvents => exact ⟨hr.head, hr.latest, hr.compared⟩
      | headEvent =>
          refine ⟨fun a ha => ?_, hr.latest, hr.compared⟩
          change r.count.map _ = some a at ha
          rw [hcount rfl] at ha
          cases ha
          exact anchors_all s.rows
      | latestAnchor =>
          refine ⟨hr.head, fun a ha => ?_, hr.compared⟩
          exact h.anchored a (List.mem_of_mem_head? ha)
      | insertAnchor a => exact hr
      | selectEvents limit =>
          cases limit with
          | none => exact hr
          | some n =>
              obtain ⟨a, hlatest, rfl⟩ := hguard
              refine ⟨hr.head, hr.latest, fun report hreport => ?_⟩
              change r.latest.map _ = some report at hreport
              rw [hlatest] at hreport
              cases hreport
              have hmatches := matchesAnchor_of_anchors hdigest h.chained (hr.latest a hlatest)
              exact hmatches.2 fun hzero => hempty (by rw [hzero])

end Steps

/-! ## Runs -/

/-- The audit table of a world. -/
def auditTable (w : World) : List AuditRow := w.audit.reverse.map (AuditEvent.toRow 0)

/-- An insertion of `record_event` that finds the head its call has read is an append. -/
theorem insertion_appends {R : Runtime} {c : AppendConfig} {tid : ℕ}
    {s : Option (Option String)} {e : AuditEvent} {o : Outcome} {w : World}
    {answer : Except Exn Unit}
    (hp : Performs (appends R) (headUnmoved R) (appending R) (fun _ => none) c tid s
      (.insertAudit e) o w answer) (happlies : applies o = true) :
    auditTable w = auditTable c.world ++
      [AuditStore.linkRow R (auditTable c.world) (e.toRow 0)] := by
  obtain ⟨prev, rfl, hprev, hhash⟩ := hp.guard
  have hread : some prev = some (auditTop c.world) :=
    Option.some.inj (hp.session.symm.trans (hp.discipline e rfl happlies))
  have hhead : headHash (auditTable c.world) = e.prevHash := by
    rw [hprev, Option.some.inj hread, headHash, auditTable, List.getLast?_map,
      List.getLast?_reverse, Option.map_map]
    rfl
  have haudit : w.audit = e :: c.world.audit := by
    rcases perform_audit hp.perform with ⟨e', heq, -, haudit⟩ | ⟨-, hnone⟩
    · cases heq
      exact haudit
    · rw [hnone e rfl] at happlies
      cases happlies
  have hrow : AuditStore.linkRow R (auditTable c.world) (e.toRow 0) = e.toRow 0 := by
    rw [AuditStore.linkRow, hhead]
    change { e.toRow 0 with eventHash := (auditLinks R).link (e.toRow 0) e.prevHash } = _
    rw [← hhash]
    rfl
  rw [hrow, auditTable, haudit, List.reverse_cons, List.map_append]
  rfl

section Runs

variable {R : Runtime} (hdigest : ChainDigest R.sha256) {c : AuditConfig}

include hdigest

theorem kept_append {s : AuditStore} (h : KeptAnchors R s) (row : AuditRow) : KeptAnchors R (s.append R row) := by
  refine ⟨?_, fun a ha => (h.anchored a ha).append⟩
  have hhead := headHash_eq hdigest h.chained
  refine Links.chained_append.2 ⟨h.chained, hhead, ?_, trivial⟩
  rw [← hhead]
  rfl

/-- The store and the calls keep what they read in every run. -/
theorem kept_of_reachable (hc : Reachable (audits R) (unmoved R) c) :
    KeptAnchors R c.world ∧ ∀ tid s, c.session (auditing R) (fun _ => {}) tid = some s →
      Reads c.world.rows s := by
  have hfresh : ∀ rows, Reads rows {} := by
    intro rows
    refine ⟨fun a ha => ?_, fun a ha => ?_, fun r hr => ?_⟩
    · cases ha
    · cases ha
    · cases hr
  refine Reachable.invariant (auditing R) (fun _ => {}) (follows_audits R)
    (I := fun c => KeptAnchors R c.world ∧ ∀ tid s,
      c.session (auditing R) (fun _ => {}) tid = some s → Reads c.world.rows s) ?_ ?_ ?_ ?_ hc
  · rintro w rfl
    refine ⟨⟨trivial, fun a ha => absurd ha List.not_mem_nil⟩, fun tid s hs => ?_⟩
    cases hs
  · intro c call _ h _ heq
    refine ⟨h.1, fun tid s hs => ?_⟩
    rw [heq, Function.update_apply] at hs
    split at hs
    · cases hs
      exact hfresh _
    · exact h.2 tid s hs
  · intro c row _ h _
    exact ⟨kept_append hdigest h.1 row, fun tid s hs => (h.2 tid s hs).append⟩
  · intro c tid s call op next o w answer _ h _ hp heq
    obtain ⟨rfl, rfl⟩ := Prod.mk.inj (Option.some.inj hp.perform)
    have hs := h.2 tid s hp.session
    refine ⟨h.1.perform hs o hp.guard, fun tid' s' hs' => ?_⟩
    change Reads (c.world.perform op o).1.rows s'
    rw [perform_rows]
    rw [heq, Function.update_apply] at hs'
    split at hs'
    · cases hs'
      refine hs.perform hdigest h.1 o hp.guard ?_ ?_
      · rintro rfl
        have hcount := hp.discipline
        simpa only [unmoved, readCount, hp.session, Option.bind_some] using hcount
      · rintro rfl
        exact hp.discipline rfl
    · exact h.2 tid' s' hs'

end Runs

/-- **Where no append lands between the statements that belong together, every verification that
finds an anchor matches.** -/
theorem honest_checkpoints_match (R : Runtime) (hdigest : ChainDigest R.sha256) (c : AuditConfig)
    (hc : Reachable (audits R) (unmoved R) c) (tid : ℕ) (report : AnchorReport)
    (hreport : reported c tid = some report) : report.«matches» = true := by
  rw [reported] at hreport
  split at hreport
  · rename_i call told ht
    obtain ⟨s, hs, htold⟩ := hc.post (auditing R) (fun _ => {}) (follows_audits R) ht
    exact ((kept_of_reachable hdigest hc).2 tid s hs).compared report (htold report hreport)
  · cases hreport

/-- Statements of one call that all complete. -/
def statements (tid n : ℕ) : List (Label AuditCall AuditRow AuditOutcome) :=
  List.replicate n (.run tid .ok)

/-- An event is anchored, and the log is verified after another event. -/
def anchorThenVerify : List (Label AuditCall AuditRow AuditOutcome) :=
  [.act (firstRow "BLOCK"), .spawn .checkpoint] ++ statements 0 3 ++
    [.act (firstRow "ALLOW"), .spawn .verify] ++ statements 1 6

/-- The empty log is anchored, and the log is verified after its first event. -/
def anchorEmptyThenVerify : List (Label AuditCall AuditRow AuditOutcome) :=
  [.spawn .checkpoint] ++ statements 0 3 ++ [.act (firstRow "BLOCK"), .spawn .verify] ++
    statements 1 6

/-- An event lands between the count and the head of an anchor. -/
def tornAnchor : List (Label AuditCall AuditRow AuditOutcome) :=
  [.act (firstRow "BLOCK"), .spawn .checkpoint] ++ statements 0 1 ++ [.act (firstRow "ALLOW")] ++
    statements 0 2 ++ [.spawn .verify] ++ statements 1 6

/-- The condition as a check. -/
def unmovedCheck (R : Runtime) :
    Machine.Checks AuditStore AuditCall AuditRow AuditOutcome AuditOp AuditOp.Val Exn AuditAnswer
    where
  run c ev := match ev.op with
    | .headEvent => decide (readCount R c ev.tid = some c.world.rows.length)
    | .selectEvents (some n) => n != 0 || c.world.rows.isEmpty
    | _ => true

/-- Anchored events match after another event. -/
theorem honest_checkpoints_match_later : ∃ c : AuditConfig,
    (reported c 1).isSome = true ∧ ∀ report, reported c 1 = some report →
      report.«matches» = true := by
  have hrun : (((audits chainRuntime).run (unmovedCheck chainRuntime) { world := {} }
      anchorThenVerify).any fun c => decide ((reported c 1).isSome = true)) = true := by
    decide +kernel
  have hchecked : (unmoved chainRuntime).Checked (unmovedCheck chainRuntime) := by
    refine ⟨fun _ _ => trivial, fun _ _ _ => trivial, fun c ev hev => ?_⟩
    unfold unmovedCheck at hev
    unfold unmoved
    obtain ⟨tid, op, o, answer⟩ := ev
    cases op
    case headEvent => exact of_decide_eq_true hev
    case selectEvents limit =>
        cases limit with
        | none => trivial
        | some n =>
            intro hzero
            simpa [hzero] using hev
    all_goals trivial
  obtain ⟨c, hc, hsome⟩ := Reachable.exists_of_run (w := {}) hchecked rfl hrun
  exact ⟨c, hsome, honest_checkpoints_match chainRuntime chainRuntime_digest c hc 1⟩

/-- Honest runs from an empty log. -/
def honestRuns :
    Discipline AuditStore AuditCall AuditRow AuditOutcome AuditOp AuditOp.Val Exn AuditAnswer where
  initial s := s = {}

/-- An anchor of the empty log does not match once the log has an event. -/
theorem honest_append_trips : ¬ ∀ (R : Runtime), ChainDigest R.sha256 → ∀ c : AuditConfig,
    Reachable (audits R) honestRuns c → ∀ (tid : ℕ) (report : AnchorReport),
      reported c tid = some report → report.«matches» = true := by
  intro h
  have hrun : (((audits chainRuntime).run {} { world := {} } anchorEmptyThenVerify).any fun c =>
      decide ((reported c 1).map AnchorReport.«matches» = some false)) = true := by
    decide +kernel
  obtain ⟨c, hc, hreport⟩ := Reachable.exists_of_run (D := honestRuns) (w := {})
    ⟨fun _ _ => trivial, fun _ _ _ => trivial, fun _ _ _ => trivial⟩ rfl hrun
  obtain ⟨report, hsome, hfalse⟩ := Option.map_eq_some_iff.1 hreport
  rw [h chainRuntime chainRuntime_digest c hc 1 report hsome] at hfalse
  cases hfalse

-- an anchor whose count and head come from different instants does not match either
example : (((audits chainRuntime).run {} { world := {} } tornAnchor).any fun c =>
    decide ((reported c 1).map AnchorReport.«matches» = some false)) = true := by
  decide +kernel

end AgentPay.Properties
