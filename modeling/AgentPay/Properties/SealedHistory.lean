import AgentPay.Gateway.Checkpoint
import AgentPay.Properties.AuditAppends
import AgentPay.Properties.TamperEvidence

/-!
# Anchored history

An anchor of the chain head pins the rows before it: a rewritten log that differs in them has another
head (`matches_of_rewritten`). The verification compares with the newest anchor only, and both
endpoints lay anchors of whatever the head is, so a rewrite is reported until one of them anchors the
rewritten log (`rewrite_reported_iff`).
-/

set_option autoImplicit false

namespace AgentPay.Properties

open AgentPay.Library AgentPay.Gateway

/-! ## Anchors and chains -/

/-- The anchor of the first rows of a table. -/
structure Anchors (a : Anchor) (rows : List AuditRow) : Prop where
  counted : a.chainEvents ≤ rows.length
  head : a.headHash = headHash (rows.take a.chainEvents)

/-- What the verification says about an anchor and a table. -/
def matchesAnchor (R : Runtime) (a : Anchor) (rows : List AuditRow) : Bool :=
  (compareAnchor a (verifyChain R (some a.chainEvents) rows)).«matches»

section Comparison

variable {R : Runtime} {a : Anchor} {rows more : List AuditRow}

theorem anchors_all (rows : List AuditRow) : Anchors ⟨rows.length, headHash rows⟩ rows :=
  ⟨le_rfl, by rw [List.take_length]⟩

/-- Rows that are appended do not touch an anchor. -/
theorem Anchors.append (h : Anchors a rows) : Anchors a (rows ++ more) := by
  refine ⟨?_, ?_⟩
  · rw [List.length_append]
    exact Nat.le_add_right_of_le h.counted
  · rw [List.take_append_of_le_length h.counted]
    exact h.head

theorem chained_limited {limit : Option ℕ} (h : (auditLinks R).Chained genesisHash rows) :
    (auditLinks R).Chained genesisHash (limited limit rows) := by
  cases limit with
  | none => exact h
  | some n =>
      rw [limited]
      split
      · exact h
      · exact h.take n

/-- On a chain the verification compares two heads. -/
theorem matchesAnchor_iff (h : (auditLinks R).Chained genesisHash rows) :
    matchesAnchor R a rows = true ↔
      (auditLinks R).head genesisHash (limited (some a.chainEvents) rows) = a.headHash := by
  have hvalid : verifyChain R (some a.chainEvents) rows = .valid _ _ :=
    verifyChain_valid_iff.2 ⟨rfl, chained_limited h, rfl⟩
  rw [matchesAnchor, hvalid]
  exact decide_eq_true_iff

variable (hdigest : ChainDigest R.sha256)

include hdigest

/-- The head hash of a chain is the head of the chain. -/
theorem headHash_eq (h : (auditLinks R).Chained genesisHash rows) :
    headHash rows = (auditLinks R).head genesisHash rows := by
  rw [head_eq]
  refine orGenesis_eq hdigest fun s hs => ?_
  have hne : rows ≠ [] := by
    rintro rfl
    cases hs
  obtain ⟨e, k, hlink⟩ := h.exists_link hne
  rw [head_eq, hs] at hlink
  exact ⟨_, hlink⟩

/-- Only the empty chain has the genesis hash as its head. -/
theorem headHash_eq_genesis (h : (auditLinks R).Chained genesisHash rows) :
    headHash rows = genesisHash ↔ rows = [] := by
  constructor
  · intro hhead
    by_contra hne
    obtain ⟨e, k, hlink⟩ := h.exists_link hne
    rw [headHash_eq hdigest h, hlink] at hhead
    exact hdigest.ne_genesis _ hhead
  · rintro rfl
    rfl

/-- An anchor of the first rows matches, unless it is one of no rows at all: a limit of zero is no
limit. -/
theorem matchesAnchor_of_anchors (h : (auditLinks R).Chained genesisHash rows)
    (ha : Anchors a rows) :
    matchesAnchor R a rows = true ↔ (a.chainEvents = 0 → rows = []) := by
  rw [matchesAnchor_iff h, ← headHash_eq hdigest (chained_limited h), ha.head, limited]
  by_cases hzero : a.chainEvents = 0
  · rw [if_pos hzero, hzero, List.take_zero]
    change headHash rows = genesisHash ↔ _
    rw [headHash_eq_genesis hdigest h]
    exact ⟨fun hrows _ => hrows, fun hrows => hrows rfl⟩
  · rw [if_neg hzero]
    exact ⟨fun _ hcontra => absurd hcontra hzero, fun _ => rfl⟩

variable (hfloat : Json.FloatText R.floatRepr)

include hfloat

/-- **An anchor that matches a rewritten log pins its first rows.** -/
theorem matches_of_rewritten {rows' : List AuditRow} (h : (auditLinks R).Chained genesisHash rows)
    (h' : (auditLinks R).Chained genesisHash rows') (ha : Anchors a rows)
    (hsome : 1 ≤ a.chainEvents) (hmatches : matchesAnchor R a rows' = true) :
    List.Forall₂ (SameRow R) (rows.take a.chainEvents) (rows'.take a.chainEvents) := by
  have hlink : ∀ e f h k, (auditLinks R).link e h = (auditLinks R).link f k →
      SameHashedFields R e f ∧ h = k := fun e f h k heq =>
    hash_determines hdigest.injective hfloat heq
  have hhead := (matchesAnchor_iff h').1 hmatches
  rw [limited, if_neg (Nat.one_le_iff_ne_zero.1 hsome), ha.head,
    headHash_eq hdigest (h.take _)] at hhead
  have hlength := Links.length_eq_of_head (fun e f h k heq => (hlink e f h k heq).2)
    (fun e k => hdigest.ne_genesis _) (h.take _) (h'.take _) hhead.symm
  exact (Links.agree_of_head hlink hlength (h.take _) (h'.take _) hhead.symm).2

end Comparison

/-! ## Calls one after the other -/

/-- A call of the gateway: an honest append, or one of the two endpoints with the outcome of its
insertion into the checkpoint store. A call whose reading fails ends before its insertion. -/
inductive Call where
  | append (row : AuditRow)
  | checkpoint (o : AuditOutcome)
  | verify (o : AuditOutcome)

/-- The answers of the databases to a call; the insertion ends with the given outcome. -/
def answering (o : AuditOutcome) (s : AuditStore) (op : AuditOp) : Except Exn op.Val × AuditStore :=
  match op with
  | .insertAnchor anchor => (s.perform (.insertAnchor anchor) o).swap
  | op => (s.perform op .ok).swap

/-- The store after a call. -/
def runCall (R : Runtime) (s : AuditStore) : Call → AuditStore
  | .append row => s.append R row
  | .checkpoint o => (auditCheckpoint.eval (answering o) s).2
  | .verify o => ((auditVerify R).eval (answering o) s).2

/-- The store after a sequence of calls. -/
def runCalls (R : Runtime) (s : AuditStore) (calls : List Call) : AuditStore :=
  calls.foldl (runCall R) s

/-- `verify_against_checkpoints` on a store. -/
def verifyOn (R : Runtime) (s : AuditStore) : Except Exn (Option AnchorReport) :=
  ((verifyAgainstCheckpoints R).eval (answering .ok) s).1

/-- The call lays an anchor. -/
def Call.lays : Call → Bool
  | .append _ => false
  | .checkpoint o | .verify o => o.applies

/-- The call appends a row. -/
def Call.appends : Call → Bool
  | .append _ => true
  | _ => false

section Calls

variable {R : Runtime} {s : AuditStore}

/-- What the insertion of an anchor leaves. -/
theorem eval_anchorCheckpoint (o : AuditOutcome) (s : AuditStore) (headHash : String) (n : ℕ) :
    ((anchorCheckpoint headHash n).eval (answering o) s).2 =
      if o.applies then { s with anchors := ⟨n, headHash⟩ :: s.anchors } else s := by
  cases o with
  | ok => rfl
  | fault e applied =>
      rw [anchorCheckpoint, Prog.eval_recover]
      cases applied <;> cases h : e.isException <;> simp [Prog.eval_bind, answering,
        AuditStore.perform, AuditStore.apply, AuditOutcome.applies, h]

theorem eval_bind_pure {α β : Type} (p : AuditPy α) (f : α → β) (o : AuditOutcome)
    (s : AuditStore) :
    ((p >>= fun a => pure (f a)).eval (answering o) s).2 = (p.eval (answering o) s).2 := by
  rw [Prog.eval_bind]
  obtain ⟨r, s'⟩ := p.eval (answering o) s
  cases r <;> rfl

theorem eval_verifyAgainst (o : AuditOutcome) (s : AuditStore) :
    (verifyAgainstCheckpoints R).eval (answering o) s =
      (.ok (s.anchors.head?.map fun a =>
        compareAnchor a (verifyChain R (some a.chainEvents) s.rows)), s) := by
  rw [verifyAgainstCheckpoints, Prog.eval_bind]
  change (match s.anchors.head? with | none => _ | some latest => _ : AuditPy _).eval _ s = _
  cases s.anchors.head? <;> rfl

/-- An endpoint changes nothing but the anchors. -/
theorem runCall_endpoint {c : Call} (h : c.appends = false) :
    runCall R s c = if c.lays then
      { s with anchors := ⟨s.rows.length, headHash s.rows⟩ :: s.anchors } else s := by
  cases c with
  | append row => cases h
  | checkpoint o => exact eval_anchorCheckpoint o s (headHash s.rows) s.rows.length
  | verify o =>
      have hhead : ((auditVerify R).eval (answering o) s).2 =
          ((verifyAgainstCheckpoints R >>= fun report =>
            anchorCheckpoint (headHash s.rows) s.rows.length >>= fun anchored => pure
              { result := verifyChain R none s.rows, events := s.rows.length,
                headHash := headHash s.rows, checkpointVerification := report,
                anchored : VerifyReport }).eval (answering o) s).2 := rfl
      change ((auditVerify R).eval (answering o) s).2 = _
      rw [hhead, Prog.eval_bind, eval_verifyAgainst]
      simp only [eval_bind_pure]
      exact eval_anchorCheckpoint o s (headHash s.rows) s.rows.length

theorem runCall_append (row : AuditRow) : ∃ e, (runCall R s (.append row)).rows = s.rows ++ [e] ∧
    e.prevHash = headHash s.rows ∧ e.eventHash = (auditLinks R).link e (headHash s.rows) ∧
      e.eventId = eventText s.issued :=
  ⟨_, rfl, rfl, rfl, rfl⟩

/-- Without a call that lays an anchor the anchors stay. -/
theorem runCalls_anchors {calls : List Call} (h : ∀ c ∈ calls, c.lays = false) :
    (runCalls R s calls).anchors = s.anchors := by
  induction calls generalizing s with
  | nil => rfl
  | cons c calls ih =>
      have hcall : (runCall R s c).anchors = s.anchors := by
        cases happ : c.appends with
        | true =>
            cases c <;> cases happ
            rfl
        | false => rw [runCall_endpoint happ, h c List.mem_cons_self]; rfl
      change (runCalls R (runCall R s c) calls).anchors = _
      rw [ih fun d hd => h d (List.mem_cons_of_mem _ hd), hcall]

/-- The table is empty when it was and no call appended to it. -/
theorem runCalls_rows_eq_nil {calls : List Call} :
    (runCalls R s calls).rows = [] ↔ s.rows = [] ∧ ∀ c ∈ calls, c.appends = false := by
  induction calls generalizing s with
  | nil => exact ⟨fun h => ⟨h, fun c hc => absurd hc List.not_mem_nil⟩, fun h => h.1⟩
  | cons c calls ih =>
      change (runCalls R (runCall R s c) calls).rows = [] ↔ _
      rw [ih, List.forall_mem_cons, ← and_assoc]
      refine and_congr_left fun _ => ?_
      cases happ : c.appends with
      | true =>
          cases c <;> cases happ
          simp [runCall, AuditStore.append]
      | false =>
          rw [runCall_endpoint happ]
          split <;> simp

/-- What a sequence of calls makes of a store: rows with new event ids, and anchors of the first
rows, of which the newer ones count more. -/
structure Since (R : Runtime) (s₀ s : AuditStore) (more : List AuditRow) (laid : List Anchor) :
    Prop where
  rows : s.rows = s₀.rows ++ more
  anchors : s.anchors = laid ++ s₀.anchors
  chained : (auditLinks R).Chained genesisHash s.rows
  anchored : ∀ a ∈ laid, Anchors a s.rows
  ordered : laid.Pairwise fun a b => b.chainEvents ≤ a.chainEvents
  issued : s₀.issued ≤ s.issued
  ids : ∀ e ∈ more, ∃ k, s₀.issued ≤ k ∧ k < s.issued ∧ e.eventId = eventText k

variable (hdigest : ChainDigest R.sha256)

include hdigest

theorem Since.call {s₀ : AuditStore} {more : List AuditRow} {laid : List Anchor}
    (h : Since R s₀ s more laid) (c : Call) :
    ∃ more' laid', Since R s₀ (runCall R s c) more' laid' := by
  cases happ : c.appends with
  | true =>
      cases c with
      | append row =>
          obtain ⟨e, hrows, hprev, hhash, hid⟩ := runCall_append (R := R) (s := s) row
          refine ⟨more ++ [e], laid, ?_, h.anchors, ?_, ?_, h.ordered,
            Nat.le_succ_of_le h.issued, ?_⟩
          · rw [hrows, h.rows, List.append_assoc]
          · rw [hrows, Links.chained_append]
            rw [headHash_eq hdigest h.chained] at hprev hhash
            exact ⟨h.chained, hprev, hhash, trivial⟩
          · rw [hrows]
            exact fun a ha => (h.anchored a ha).append
          · intro f hf
            rcases List.mem_append.1 hf with hf | hf
            · obtain ⟨k, hk, hlt, hid⟩ := h.ids f hf
              exact ⟨k, hk, Nat.lt_succ_of_lt hlt, hid⟩
            · rw [List.mem_singleton.1 hf]
              exact ⟨s.issued, h.issued, Nat.lt_succ_self _, hid⟩
      | _ => cases happ
  | false =>
      rw [runCall_endpoint happ]
      split
      · refine ⟨more, ⟨s.rows.length, headHash s.rows⟩ :: laid, h.rows, ?_, h.chained, ?_, ?_,
          h.issued, h.ids⟩
        · exact congrArg (_ :: ·) h.anchors
        · exact List.forall_mem_cons.2 ⟨anchors_all s.rows, h.anchored⟩
        · exact List.pairwise_cons.2 ⟨fun a ha => (h.anchored a ha).counted, h.ordered⟩
      · exact ⟨more, laid, h⟩

theorem runCalls_since (h : (auditLinks R).Chained genesisHash s.rows) (calls : List Call) :
    ∃ more laid, Since R s (runCalls R s calls) more laid := by
  induction calls using List.reverseRecOn with
  | nil =>
      exact ⟨[], [], (List.append_nil _).symm, rfl, h, fun a ha => absurd ha List.not_mem_nil,
        .nil, le_rfl, fun e he => absurd he List.not_mem_nil⟩
  | append_singleton calls c ih =>
      obtain ⟨more, laid, hsince⟩ := ih
      rw [runCalls, List.foldl_append]
      exact hsince.call hdigest c

end Calls

/-! ## A rewritten log -/

theorem eventText_injective : Function.Injective eventText := by
  intro n m h
  have hchars := congrArg String.toList h
  simp only [eventText, String.toList_append, List.append_cancel_left_eq] at hchars
  exact Nat.repr_injective (String.toList_inj.1 hchars)

/-- The calls never anchored the rewritten log, or the last anchor they laid is one of an empty log
that has got rows since. -/
def StillReported (rows : List AuditRow) (calls : List Call) : Prop :=
  (∀ c ∈ calls, c.lays = false) ∨
    ∃ pre c post, calls = pre ++ c :: post ∧ c.lays = true ∧ (∀ d ∈ post, d.lays = false) ∧
      rows = [] ∧ (∀ d ∈ pre, d.appends = false) ∧ ∃ d ∈ post, d.appends = true

/-- The calls up to the last one that lays an anchor. -/
theorem exists_last_lays {calls : List Call} (h : ¬ ∀ c ∈ calls, c.lays = false) :
    ∃ pre c post, calls = pre ++ c :: post ∧ c.lays = true ∧ ∀ d ∈ post, d.lays = false := by
  induction calls with
  | nil => exact absurd (fun c hc => absurd hc List.not_mem_nil) h
  | cons c calls ih =>
      by_cases hrest : ∀ d ∈ calls, d.lays = false
      · refine ⟨[], c, calls, rfl, ?_, hrest⟩
        rw [List.forall_mem_cons, not_and] at h
        exact Bool.eq_true_of_not_eq_false fun hc => h hc hrest
      · obtain ⟨pre, d, post, rfl, hd, hpost⟩ := ih hrest
        exact ⟨c :: pre, d, post, rfl, hd, hpost⟩

section Rewriting

variable {R : Runtime} (hdigest : ChainDigest R.sha256)

include hdigest

/-- A rewritten log that was anchored matches its last anchor, unless that one is of no rows. -/
theorem matches_after_laying {s : AuditStore} (h : (auditLinks R).Chained genesisHash s.rows)
    (pre : List Call) {post : List Call} {c : Call} (hc : c.lays = true) (hpost : ∀ d ∈ post, d.lays = false) :
    ∃ a, (runCalls R s (pre ++ c :: post)).anchors.head? = some a ∧
      (matchesAnchor R a (runCalls R s (pre ++ c :: post)).rows = false ↔
        s.rows = [] ∧ (∀ d ∈ pre, d.appends = false) ∧ ∃ d ∈ post, d.appends = true) := by
  obtain ⟨_, _, hbefore⟩ := runCalls_since hdigest h pre
  have happ : c.appends = false := by
    cases c <;> first | rfl | cases hc
  have hcalls : runCalls R s (pre ++ c :: post) = runCalls R
      { runCalls R s pre with anchors := ⟨(runCalls R s pre).rows.length,
          headHash (runCalls R s pre).rows⟩ :: (runCalls R s pre).anchors } post := by
    rw [runCalls, List.foldl_append, List.foldl_cons]
    change runCalls R (runCall R (runCalls R s pre) c) post = _
    rw [runCall_endpoint happ, hc, if_pos rfl]
  have hempty : (runCalls R s pre).rows = [] ↔ s.rows = [] ∧ ∀ c ∈ pre, c.appends = false :=
    runCalls_rows_eq_nil
  rw [hcalls]
  generalize runCalls R s pre = t at hbefore hempty
  obtain ⟨more, _, hafter⟩ := runCalls_since hdigest (s := { t with anchors :=
    ⟨t.rows.length, headHash t.rows⟩ :: t.anchors }) hbefore.chained post
  refine ⟨⟨t.rows.length, headHash t.rows⟩, by rw [runCalls_anchors hpost]; rfl, ?_⟩
  have hmatches := matchesAnchor_of_anchors hdigest hafter.chained
    (hafter.rows ▸ (anchors_all t.rows).append)
  rw [← Bool.not_eq_true, hmatches, runCalls_rows_eq_nil, Classical.not_imp,
    List.length_eq_zero_iff, hempty, not_and]
  constructor
  · rintro ⟨⟨hrows, hpre⟩, hpost'⟩
    have hsome := hpost' ⟨hrows, hpre⟩
    simp only [not_forall, Bool.not_eq_false] at hsome
    obtain ⟨d, hd, happ⟩ := hsome
    exact ⟨hrows, hpre, d, hd, happ⟩
  · rintro ⟨hrows, hpre, d, hd, happ⟩
    refine ⟨⟨hrows, hpre⟩, fun _ hnone => ?_⟩
    rw [hnone d hd] at happ
    cases happ

variable (hfloat : Json.FloatText R.floatRepr)

include hfloat

/-- An anchor of the log before the rewrite does not match the rewritten one, whatever was appended
to it since: an appended row has an event id no row of the old log has. -/
theorem not_matches_before_laying {s₁ s : AuditStore} {a latest : Anchor}
    {rows more old : List AuditRow} {laid laid' : List Anchor} (hold : Since R {} s₁ old laid)
    (hlatest : Anchors latest s₁.rows) (hle : a.chainEvents ≤ latest.chainEvents)
    (hsome : 1 ≤ a.chainEvents) (hnew : Since R { s₁ with rows } s more laid')
    (hchanged : ¬ List.Forall₂ (SameRow R) (s₁.rows.take a.chainEvents)
      (rows.take a.chainEvents)) : matchesAnchor R latest s.rows = false := by
  rw [← Bool.not_eq_true]
  intro hmatches
  have hsame := List.forall₂_take a.chainEvents (matches_of_rewritten hdigest hfloat hold.chained
    hnew.chained hlatest (hsome.trans hle) hmatches)
  rw [List.take_take, List.take_take, min_eq_left hle, hnew.rows, List.take_append] at hsame
  cases hrest : more.take (a.chainEvents - rows.length) with
  | nil =>
      rw [hrest, List.append_nil] at hsame
      exact hchanged hsame
  | cons e rest =>
      have hids : (s₁.rows.take a.chainEvents).map AuditRow.eventId =
          (rows.take a.chainEvents ++ e :: rest).map AuditRow.eventId := by
        rw [← List.forall₂_eq_eq_eq, List.forall₂_map_left_iff, List.forall₂_map_right_iff,
          ← hrest]
        exact hsame.imp fun _ _ h => h.1.eventId
      have hmem : e.eventId ∈ (s₁.rows.take a.chainEvents).map AuditRow.eventId := by
        rw [hids, List.map_append]
        exact List.mem_append_right _ List.mem_cons_self
      obtain ⟨f, hf, hfe⟩ := List.mem_map.1 hmem
      obtain ⟨k, -, hk, hfid⟩ := hold.ids f (by
        rw [← List.nil_append old]
        exact hold.rows ▸ List.mem_of_mem_take hf)
      obtain ⟨k', hk', -, heid⟩ := hnew.ids e (List.mem_of_mem_take (hrest ▸ List.mem_cons_self))
      have heq := eventText_injective (hfid.symm.trans (hfe.trans heid))
      exact absurd (heq ▸ hk) (Nat.not_lt.2 hk')

end Rewriting

/-- **A rewrite of anchored rows is reported until an endpoint anchors the rewritten log.** -/
theorem rewrite_reported_iff (R : Runtime) (hdigest : ChainDigest R.sha256)
    (hfloat : Json.FloatText R.floatRepr) (before later : List Call) (a : Anchor)
    (ha : a ∈ (runCalls R {} before).anchors) (hsome : 1 ≤ a.chainEvents) (rows : List AuditRow)
    (haccepted : ∃ n head, verifyChain R none rows = .valid n head)
    (hchanged : ¬ List.Forall₂ (SameRow R) ((runCalls R {} before).rows.take a.chainEvents)
      (rows.take a.chainEvents)) :
    ∃ report, verifyOn R (runCalls R { runCalls R {} before with rows } later) =
      .ok (some report) ∧ (report.«matches» = false ↔ StillReported rows later) := by
  obtain ⟨n, head, hvalid⟩ := haccepted
  have hchained : (auditLinks R).Chained genesisHash rows := (verifyChain_valid_iff.1 hvalid).2.1
  obtain ⟨old, laid, hold⟩ := runCalls_since hdigest (s := {}) (by trivial) before
  generalize runCalls R {} before = s₁ at *
  obtain ⟨more, laid', hnew⟩ := runCalls_since hdigest (s := { s₁ with rows }) hchained later
  rw [verifyOn, eval_verifyAgainst]
  by_cases hlays : ∀ c ∈ later, c.lays = false
  · have hanchors := runCalls_anchors (R := R) (s := { s₁ with rows }) hlays
    cases hlaid : s₁.anchors with
    | nil =>
        rw [hlaid] at ha
        cases ha
    | cons latest older =>
        rw [hanchors, hlaid]
        refine ⟨_, rfl, fun _ => .inl hlays, fun _ => ?_⟩
        have hanchored : s₁.anchors = laid := by simpa using hold.anchors
        rw [← hanchored, hlaid] at hold
        have hle : a.chainEvents ≤ latest.chainEvents := by
          rw [hlaid] at ha
          rcases List.mem_cons.1 ha with rfl | ha
          · exact le_rfl
          · exact (List.pairwise_cons.1 hold.ordered).1 a ha
        exact not_matches_before_laying hdigest hfloat hold
          (hold.anchored latest List.mem_cons_self) hle hsome hnew hchanged
  · obtain ⟨pre, c, post, rfl, hc, hpost⟩ := exists_last_lays hlays
    obtain ⟨latest, hlatest, hiff⟩ := matches_after_laying hdigest (s := { s₁ with rows }) hchained
      pre hc hpost
    rw [hlatest]
    refine ⟨_, rfl, hiff.trans ⟨fun h => .inr ⟨pre, c, post, rfl, hc, hpost, h⟩, ?_⟩⟩
    rintro (hnone | ⟨pre', c', post', heq, hc', hpost', h⟩)
    · rw [hnone c (by simp)] at hc
      cases hc
    · obtain ⟨latest', hlatest', hiff'⟩ := matches_after_laying hdigest (s := { s₁ with rows })
        hchained pre' hc' hpost'
      rw [← heq, hlatest, Option.some.injEq] at hlatest'
      subst hlatest'
      exact hiff.1 (by rw [heq]; exact hiff'.2 h)

/-- One event, anchored. -/
def anchored : List Call := [.append (firstRow "BLOCK"), .checkpoint .ok]

/-- The log of another event. -/
def forged : List AuditRow := (runCalls chainRuntime {} [.append (firstRow "ALLOW")]).rows

/-- The anchor of the event. -/
def firstAnchor : Anchor := ⟨1, headHash (runCalls chainRuntime {} anchored).rows⟩

theorem firstAnchor_mem : firstAnchor ∈ (runCalls chainRuntime {} anchored).anchors :=
  List.mem_cons_self

theorem forged_chained : (auditLinks chainRuntime).Chained genesisHash forged := by
  obtain ⟨_, _, hsince⟩ := runCalls_since chainRuntime_digest (s := {}) (by trivial)
    [.append (firstRow "ALLOW")]
  exact hsince.chained

theorem forged_changed : ¬ List.Forall₂ (SameRow chainRuntime)
    ((runCalls chainRuntime {} anchored).rows.take 1) (forged.take 1) := by
  intro h
  have hdecision := (List.forall₂_cons.1 h).1.1.decision
  exact absurd hdecision (by decide)

/-- A rewrite is reported after an honest append. -/
theorem rewrite_reported_iff_append : ∃ report,
    verifyOn chainRuntime (runCalls chainRuntime
      { runCalls chainRuntime {} anchored with rows := forged } [.append (firstRow "ALLOW")]) =
        .ok (some report) ∧ report.«matches» = false := by
  obtain ⟨report, hreport, hiff⟩ := rewrite_reported_iff chainRuntime chainRuntime_digest
    Json.floatText_ratText anchored [.append (firstRow "ALLOW")] firstAnchor firstAnchor_mem le_rfl
    forged ⟨_, _, verifyChain_valid_iff.2 ⟨rfl, forged_chained, rfl⟩⟩ forged_changed
  refine ⟨report, hreport, hiff.2 (.inl ?_)⟩
  exact List.forall_mem_singleton.2 rfl

/-- A call that lays an anchor after the rewrite makes the rewritten log match. -/
theorem rewrite_anchored : ¬ ∀ (R : Runtime), ChainDigest R.sha256 → Json.FloatText R.floatRepr →
    ∀ (before later : List Call) (a : Anchor), a ∈ (runCalls R {} before).anchors →
      1 ≤ a.chainEvents → ∀ rows : List AuditRow,
        (∃ n head, verifyChain R none rows = .valid n head) →
        ¬ List.Forall₂ (SameRow R) ((runCalls R {} before).rows.take a.chainEvents)
          (rows.take a.chainEvents) →
        ∀ report, verifyOn R (runCalls R { runCalls R {} before with rows } later) =
          .ok (some report) → report.«matches» = false := by
  intro h
  have hnone : ∀ d ∈ ([] : List Call), d.lays = false := fun d hd => absurd hd List.not_mem_nil
  obtain ⟨latest, hlatest, hiff⟩ := matches_after_laying chainRuntime_digest
    (s := { runCalls chainRuntime {} anchored with rows := forged }) forged_chained []
    (c := .checkpoint .ok) rfl hnone
  have hfalse := h chainRuntime chainRuntime_digest Json.floatText_ratText anchored
    [.checkpoint .ok] firstAnchor firstAnchor_mem le_rfl forged
    ⟨_, _, verifyChain_valid_iff.2 ⟨rfl, forged_chained, rfl⟩⟩ forged_changed
    (compareAnchor latest (verifyChain chainRuntime (some latest.chainEvents) forged)) ?_
  · obtain ⟨-, -, d, hd, -⟩ := hiff.1 hfalse
    cases hd
  · rw [verifyOn, eval_verifyAgainst]
    rw [List.nil_append] at hlatest
    rw [hlatest]
    rfl

end AgentPay.Properties
