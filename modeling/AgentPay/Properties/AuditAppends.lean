import AgentPay.Gateway.AuditLog
import AgentPay.Properties.Scenario

/-!
# Concurrent appends to the audit log

Any number of `record_event` calls over one world. The lock of the chain is a lease, so a call can
insert after another call extended the log behind its back. A run keeps the log accepted, and its
rows apart from each other, exactly when every insertion finds the head its call read
(`log_sound_iff`).
-/

set_option autoImplicit false

namespace AgentPay.Properties

open AgentPay.Library AgentPay.Library.Machine AgentPay.Gateway

/-! ## The machine of appends -/

/-- Concurrent calls of `record_event`. -/
def appends (R : Runtime) : Machine World EventFields Env Outcome Op Op.Val Exn (ℕ × String) where
  start := recordEvent R
  perform := World.perform
  environment := World.environment

/-- Configurations of concurrent appends. -/
abbrev AppendConfig := Machine.Config World EventFields Outcome Op Op.Val Exn (ℕ × String)

/-- Conditions on the steps of concurrent appends. -/
abbrev AppendDiscipline :=
  Machine.Discipline World EventFields Env Outcome Op Op.Val Exn (ℕ × String)

/-- The hash of the newest event. -/
def auditTop (w : World) : Option String := w.audit.head?.map AuditEvent.eventHash

/-- The protocol of an append: it remembers the head it read, and inserts an event behind it. -/
def appending (R : Runtime) : Protocol Op Op.Val Exn (Option (Option String)) where
  guard s op := match op with
    | .insertAudit e => ∃ prev, s = some prev ∧ e.prevHash = orGenesis prev ∧
        e.eventHash = (auditLinks R).link (e.toRow 0) e.prevHash
    | _ => True
  next s op answer := match op, answer with
    | .auditHead, .ok prev => some prev
    | _, _ => s

/-- The head a call has read. -/
def readHead (R : Runtime) (c : AppendConfig) (tid : ℕ) : Option (Option (Option String)) :=
  c.session (appending R) (fun _ => none) tid

theorem follows_acquire (R : Runtime) (name : String) (token ttl n : ℕ)
    (s : Option (Option String)) :
    (acquire name token ttl n).Follows (appending R) s (fun _ _ => True) := by
  induction n with
  | zero => trivial
  | succ n ih =>
      refine Prog.Follows.perform trivial (fun taken => ?_) fun _ => trivial
      cases taken with
      | true => trivial
      | false => exact Prog.Follows.perform trivial (fun _ => ih) fun _ => trivial

/-- An append follows the protocol whatever it appends. -/
theorem follows_recordEvent (R : Runtime) (f : EventFields) :
    (recordEvent R f).Follows (appending R) none (fun _ _ => True) := by
  have hrelease : ∀ token s, (release "audit_chain" token).Follows (appending R) s
      (fun _ _ => True) := fun token s =>
    Prog.Follows.perform trivial (fun _ => trivial) fun _ => trivial
  refine Prog.Follows.perform trivial (fun eventId => ?_) fun _ => trivial
  refine Prog.Follows.perform trivial (fun createdAt => ?_) fun _ => trivial
  refine Prog.Follows.perform trivial (fun token => ?_) fun _ => trivial
  refine (follows_acquire R _ _ _ _ _).bind (fun _ s _ => ?_) fun _ _ _ => trivial
  rw [Prog.follows_ensure]
  refine Prog.Follows.mono (Q := fun _ _ => True) ?_ fun r s _ =>
    (hrelease token s).mono fun r' _ _ => by cases r' <;> trivial
  refine Prog.Follows.perform trivial (fun prev => ?_) fun _ => trivial
  exact Prog.Follows.perform ⟨prev, rfl, rfl, rfl⟩ (fun _ => trivial) fun _ => trivial

/-- The operation takes effect. -/
def applies : Outcome → Bool
  | .fault _ applied => applied
  | _ => true

/-- What an operation does to the log. -/
theorem perform_audit {w w' : World} {op : Op} {o : Outcome} {answer : Except Exn op.Val}
    (h : w.perform op o = some (w', answer)) :
    (∃ e, op = .insertAudit e ∧ applies o = true ∧ w'.audit = e :: w.audit) ∨
      (w'.audit = w.audit ∧ ∀ e, op = .insertAudit e → applies o = false) := by
  by_cases hop : ∃ e, op = .insertAudit e
  · obtain ⟨e, rfl⟩ := hop
    cases o with
    | fault exn applied =>
        obtain ⟨rfl, -⟩ := Prod.mk.inj (Option.some.inj h)
        cases applied with
        | true => exact .inl ⟨e, rfl, rfl, rfl⟩
        | false => exact .inr ⟨rfl, fun _ _ => rfl⟩
    | ok =>
        obtain ⟨rfl, -⟩ := Prod.mk.inj (Option.some.inj h)
        exact .inl ⟨e, rfl, rfl, rfl⟩
    | _ => cases h
  · refine .inr ⟨?_, fun e he => absurd ⟨e, he⟩ hop⟩
    rcases World.perform_world h with rfl | rfl
    · cases op
      case insertAudit e => exact absurd ⟨e, rfl⟩ hop
      all_goals first
        | rfl
        | (simp only [World.apply]; split <;> rfl)
    · rfl

/-! ## The log as a chain -/

/-- The log, newest first, is a chain from the genesis hash. -/
def Linked (R : Runtime) (audit : List AuditEvent) : Prop :=
  (auditLinks R).Chained genesisHash (audit.reverse.map (AuditEvent.toRow 0))

/-- A digest no two texts share, which is neither empty nor the genesis hash. -/
structure ChainDigest (digest : String → String) : Prop where
  injective : Function.Injective digest
  ne_empty : ∀ s, digest s ≠ ""
  ne_genesis : ∀ s, digest s ≠ genesisHash

/-- The log is accepted however it is read back, and no two of its rows share a predecessor. -/
structure SoundLog (R : Runtime) (w : World) : Prop where
  accepted : ∀ rows, List.Forall₂ ReadsBack w.audit.reverse rows →
    ∃ head, verifyChain R none rows = .valid rows.length head
  apart : (w.audit.map AuditEvent.prevHash).Nodup

section Chain

variable {R : Runtime} {audit : List AuditEvent} {e : AuditEvent}

theorem linked_cons : Linked R (e :: audit) ↔ Linked R audit ∧
    e.prevHash = (audit.head?.map AuditEvent.eventHash).getD genesisHash ∧
      e.eventHash = (auditLinks R).link (e.toRow 0) e.prevHash := by
  have hhead : (auditLinks R).head genesisHash (audit.reverse.map (AuditEvent.toRow 0)) =
      (audit.head?.map AuditEvent.eventHash).getD genesisHash := by
    rw [head_eq, List.getLast?_map, List.getLast?_reverse, Option.map_map]
    rfl
  rw [Linked, List.reverse_cons, List.map_append, Links.chained_append, hhead]
  refine and_congr_right fun _ => ?_
  constructor
  · rintro ⟨hprev, hhash, -⟩
    exact ⟨hprev, by rw [← hprev] at hhash; exact hhash⟩
  · rintro ⟨hprev, hhash⟩
    exact ⟨hprev, by rw [← hprev]; exact hhash, trivial⟩

/-- The hashes of a linked log are digests. -/
theorem Linked.exists_digest (h : Linked R audit) :
    ∀ e ∈ audit, ∃ text, e.eventHash = R.sha256 text := by
  induction audit with
  | nil => exact fun e he => absurd he List.not_mem_nil
  | cons a audit ih =>
      obtain ⟨hrest, -, hhash⟩ := linked_cons.1 h
      intro e he
      rcases List.mem_cons.1 he with rfl | he
      · exact ⟨_, hhash⟩
      · exact ih hrest e he

theorem Linked.top_digest (h : Linked R audit) :
    ∀ s, audit.head?.map AuditEvent.eventHash = some s → ∃ text, s = R.sha256 text := by
  intro s hs
  obtain ⟨e, he, rfl⟩ := Option.map_eq_some_iff.1 hs
  exact h.exists_digest e (List.mem_of_mem_head? he)

variable (hdigest : ChainDigest R.sha256)

include hdigest

/-- The hashes a call may have read tell each other apart behind `orGenesis`. -/
theorem orGenesis_eq {prev : Option String} (h : ∀ s, prev = some s → ∃ text, s = R.sha256 text) :
    orGenesis prev = prev.getD genesisHash := by
  cases prev with
  | none => rfl
  | some s =>
      obtain ⟨text, rfl⟩ := h s rfl
      exact if_neg (hdigest.ne_empty text)

theorem getD_genesis_inj {a b : Option String} (ha : ∀ s, a = some s → ∃ text, s = R.sha256 text)
    (hb : ∀ s, b = some s → ∃ text, s = R.sha256 text)
    (h : a.getD genesisHash = b.getD genesisHash) : a = b := by
  cases a with
  | none =>
      cases b with
      | none => rfl
      | some s =>
          obtain ⟨text, rfl⟩ := hb s rfl
          exact absurd h.symm (hdigest.ne_genesis text)
  | some s =>
      cases b with
      | none =>
          obtain ⟨text, rfl⟩ := ha s rfl
          exact absurd h (hdigest.ne_genesis text)
      | some t => exact congrArg some h

variable (hfloat : Json.FloatText R.floatRepr)

include hfloat

/-- The log is sound exactly when it is a chain. -/
theorem soundLog_iff {w : World} : SoundLog R w ↔ Linked R w.audit := by
  have hreading : List.Forall₂ ReadsBack w.audit.reverse (w.audit.reverse.map (AuditEvent.toRow 0)) :=
    List.forall₂_map_right_iff.2 (List.forall₂_same.2 fun e _ => readsBack_toRow 0 e)
  constructor
  · intro h
    obtain ⟨head, hvalid⟩ := h.accepted _ hreading
    exact (verifyChain_valid_iff.1 hvalid).2.1
  · intro h
    refine ⟨fun rows hrows => ?_, ?_⟩
    · have hagree : List.Forall₂ ((auditLinks R).Agree (SameHashedFields R))
          (w.audit.reverse.map (AuditEvent.toRow 0)) rows :=
        List.forall₂_map_left_iff.2 (hrows.imp fun e row hrow => hrow.agree R 0)
      have hchain := Links.Chained.congr (fun e f k hsame => hsame.computeHash k) hagree h
      exact ⟨_, verifyChain_valid_iff.2 ⟨rfl, hchain, rfl⟩⟩
    · have hnodup := h.nodup_prev (Links.Chained.nodup_hash
        (fun e f k k' heq => (hash_determines hdigest.injective hfloat heq).2)
        (fun e k => hdigest.ne_genesis _) h)
      have hprev : (w.audit.reverse.map (AuditEvent.toRow 0)).map (auditLinks R).prev =
          (w.audit.map AuditEvent.prevHash).reverse := by
        rw [List.map_map, ← List.map_reverse]
        rfl
      rwa [hprev, List.nodup_reverse] at hnodup

end Chain

/-! ## Runs -/

/-- The log is empty at first. -/
def fromEmpty : AppendDiscipline where
  initial w := w.audit = []

/-- Every insertion that takes effect finds the head its call has read. -/
def headUnmoved (R : Runtime) : AppendDiscipline where
  initial w := w.audit = []
  run c ev := ∀ e, ev.op = .insertAudit e → applies ev.choice = true →
    readHead R c ev.tid = some (some (auditTop c.world))

section Runs

variable {R : Runtime} {D : AppendDiscipline} {c : AppendConfig}

/-- The environment leaves the log alone. -/
theorem environment_audit (w : World) (env : Env) : (w.environment env).audit = w.audit := by
  cases env <;> rfl

/-- What a call has read was the head of the log. -/
theorem readHead_recorded (hc : Reachable (appends R) D c) {tid : ℕ} {prev : Option String}
    (hread : readHead R c tid = some (some prev)) :
    ∀ s, prev = some s → ∃ e ∈ c.world.audit, s = e.eventHash := by
  have hkept : ∀ {w w' : World} {op : Op} {o : Outcome} {answer : Except Exn op.Val},
      w.perform op o = some (w', answer) → ∀ e ∈ w.audit, e ∈ w'.audit := by
    intro w w' op o answer h e he
    rcases perform_audit h with ⟨a, -, -, heq⟩ | ⟨heq, -⟩
    · exact heq ▸ List.mem_cons_of_mem _ he
    · exact heq ▸ he
  have hall := hc.thread_invariant (appending R) (fun _ => none)
    (follows_recordEvent R)
    (I := fun w s => ∀ prev, s = some prev → ∀ t, prev = some t →
      ∃ e ∈ w.audit, t = e.eventHash) ?_ ?_ ?_ ?_ hread
  · exact hall prev rfl
  · intro c f _ prev hs
    cases hs
  · intro c env s _ _ h prev hs t ht
    change ∃ e ∈ (c.world.environment env).audit, t = e.eventHash
    rw [environment_audit]
    exact h prev hs t ht
  · intro c tid s op o w answer _ hp h prev hs t ht
    have hold : s = some prev → ∃ e ∈ w.audit, t = e.eventHash := by
      intro hs
      obtain ⟨e, he, heq⟩ := h prev hs t ht
      exact ⟨e, hkept hp.perform e he, heq⟩
    cases op
    case auditHead =>
        cases answer with
        | error e => exact hold hs
        | ok top =>
            cases hs
            obtain ⟨rfl, hvalue⟩ := World.perform_ok hp.perform
            cases o <;> simp only [World.answer, World.value, Option.some.injEq, Except.ok.injEq,
              reduceCtorEq] at hvalue
            subst hvalue
            obtain ⟨e, he, rfl⟩ := Option.map_eq_some_iff.1 ht
            exact ⟨e, List.mem_of_mem_head? he, rfl⟩
    all_goals exact hold (by cases answer <;> exact hs)
  · intro c tid s op o w answer tid' s' _ hp _ _ h prev hs t ht
    obtain ⟨e, he, heq⟩ := h prev hs t ht
    exact ⟨e, hkept hp.perform e he, heq⟩

section Exact

variable (hdigest : ChainDigest R.sha256) (hfloat : Json.FloatText R.floatRepr)

include hdigest

/-- Insertions behind the head they read keep the log a chain. -/
theorem linked_of_headUnmoved (hc : Reachable (appends R) (headUnmoved R) c) :
    Linked R c.world.audit := by
  refine Reachable.invariant (appending R) (fun _ => none)
    (follows_recordEvent R) (I := fun c => Linked R c.world.audit) ?_ ?_ ?_ ?_ hc
  · intro w hw
    change Linked R w.audit
    rw [hw]
    trivial
  · exact fun c f _ h _ _ => h
  · intro c env _ h _
    change Linked R (c.world.environment env).audit
    rwa [environment_audit]
  · intro c tid s f op next o w answer _ h _ hp _
    change Linked R w.audit
    rcases perform_audit hp.perform with ⟨e, rfl, happlies, heq⟩ | ⟨heq, -⟩
    · obtain ⟨prev, rfl, hprev, hhash⟩ := hp.guard
      have hread : readHead R c tid = some (some prev) := hp.session
      rw [hp.discipline e rfl happlies, Option.some.injEq, Option.some.injEq] at hread
      rw [heq, linked_cons]
      refine ⟨h, ?_, hhash⟩
      rw [hprev, ← hread]
      exact orGenesis_eq hdigest h.top_digest
    · rwa [heq]

/-- A run to a log that is a chain is one of such insertions. -/
theorem headUnmoved_of_linked (hc : Reachable (appends R) fromEmpty c)
    (h : Linked R c.world.audit) : Reachable (appends R) (headUnmoved R) c := by
  induction hc with
  | initial hw => exact .initial hw
  | spawn f _ _ ih => exact .spawn f (ih h) trivial
  | @act c env _ _ ih =>
      refine .act env (ih ?_) trivial
      change Linked R (c.world.environment env).audit at h
      rwa [environment_audit] at h
  | @run c tid f op next o w answer hc ht hp _ ih =>
      obtain ⟨s, hs, hfollows⟩ := hc.follows (appending R) (fun _ => none)
        (follows_recordEvent R) ht
      change Linked R w.audit at h
      rcases perform_audit hp with ⟨e, rfl, happlies, heq⟩ | ⟨heq, hnone⟩
      · rw [heq, linked_cons] at h
        refine .run (ih h.1) ht hp fun e' he' _ => ?_
        obtain ⟨prev, rfl, hprev, -⟩ := hfollows.1
        -- the head that was read and the present head are one hash, or both missing
        have hread : ∀ t, prev = some t → ∃ text, t = R.sha256 text := by
          intro t ht'
          obtain ⟨a, ha, rfl⟩ := readHead_recorded hc hs t ht'
          exact h.1.exists_digest a ha
        refine hs.trans (congrArg (fun p => some (some p)) ?_)
        refine getD_genesis_inj hdigest hread h.1.top_digest ?_
        rw [← orGenesis_eq hdigest hread, ← hprev, h.2.1]
        rfl
      · rw [heq] at h
        refine .run (ih h) ht hp fun e he happlies => ?_
        rw [hnone e he] at happlies
        cases happlies

end Exact

end Runs

/-- **The log of a run is sound exactly when every insertion found the head its call read.** -/
theorem log_sound_iff (R : Runtime) (hdigest : ChainDigest R.sha256)
    (hfloat : Json.FloatText R.floatRepr) (c : AppendConfig)
    (hc : Reachable (appends R) fromEmpty c) :
    SoundLog R c.world ↔ Reachable (appends R) (headUnmoved R) c := by
  rw [soundLog_iff hdigest hfloat]
  exact ⟨headUnmoved_of_linked hdigest hc, linked_of_headUnmoved hdigest⟩

/-! ## Two appends -/

/-- The digest is the text behind a mark, and a float is written as a fraction. -/
def chainRuntime : Runtime :=
  { Scenario.runtime with sha256 := fun s => "#" ++ s, floatRepr := Json.ratText }

theorem toList_mark (s : String) : (chainRuntime.sha256 s).toList = '#' :: s.toList := by
  have hmark : "#".toList = ['#'] := rfl
  change ("#" ++ s).toList = _
  rw [String.toList_append, hmark, List.singleton_append]

theorem chainRuntime_digest : ChainDigest chainRuntime.sha256 where
  injective s t h := by
    have hchars := congrArg String.toList h
    rw [toList_mark, toList_mark] at hchars
    exact String.toList_inj.1 (List.cons.inj hchars).2
  ne_empty s h := by
    have hchars := congrArg String.toList h
    rw [toList_mark, String.toList_empty] at hchars
    cases hchars
  ne_genesis s h := by
    have hchars : '#' :: s.toList = List.replicate 64 '0' := by
      rw [← toList_mark, h]
      exact String.toList_ofList
    have hmark : '#' ∈ List.replicate 64 '0' := hchars ▸ List.mem_cons_self
    exact absurd (List.eq_of_mem_replicate hmark) (by decide)

/-- The log before the first append. -/
def freshWorld : World := { clock := seconds 1000000 }

/-- An append up to the reading of the head. -/
def toHead (tid : ℕ) (eventType : String) : List (Label EventFields Env Outcome) :=
  .spawn { eventType } :: (oks 5).map (.run tid)

/-- One append after the other. -/
def serialAppends : List (Label EventFields Env Outcome) :=
  toHead 0 "a" ++ (oks 2).map (.run 0) ++ toHead 1 "b" ++ (oks 2).map (.run 1)

/-- The second append starts when the lease of the first one is over. -/
def overlappingAppends : List (Label EventFields Env Outcome) :=
  toHead 0 "a" ++ [.act (.tick (seconds 16))] ++ toHead 1 "b" ++ (oks 1).map (.run 1) ++
    (oks 1).map (.run 0)

/-- The condition as a check. -/
def headUnmovedCheck (R : Runtime) :
    Machine.Checks World EventFields Env Outcome Op Op.Val Exn (ℕ × String) where
  run c ev := match ev.op with
    | .insertAudit _ => decide (readHead R c ev.tid = some (some (auditTop c.world)))
    | _ => true

/-- Appends that come one after the other leave a sound log. -/
theorem log_sound_iff_serial : ∃ c : AppendConfig, c.world.audit.length = 2 ∧
    SoundLog chainRuntime c.world ∧
      (SoundLog chainRuntime c.world ↔
        Reachable (appends chainRuntime) (headUnmoved chainRuntime) c) := by
  have hrun : (((appends chainRuntime).run (headUnmovedCheck chainRuntime) { world := freshWorld }
      serialAppends).any fun c => decide (c.world.audit.length = 2)) = true := by decide +kernel
  have hchecked : (headUnmoved chainRuntime).Checked (headUnmovedCheck chainRuntime) := by
    refine ⟨fun _ _ => trivial, fun _ _ _ => trivial, fun c ev hev e he _ => ?_⟩
    simp only [headUnmovedCheck, he, decide_eq_true_eq] at hev
    exact hev
  obtain ⟨c, hc, hlength⟩ := Reachable.exists_of_run (w := freshWorld) hchecked rfl hrun
  have hempty : Reachable (appends chainRuntime) fromEmpty c := by
    clear hlength
    induction hc with
    | initial hw => exact .initial hw
    | spawn f _ _ ih => exact .spawn f ih trivial
    | act env _ _ ih => exact .act env ih trivial
    | run _ ht hp _ ih => exact .run ih ht hp trivial
  have hiff := log_sound_iff chainRuntime chainRuntime_digest Json.floatText_ratText c hempty
  exact ⟨c, hlength, hiff.2 hc, hiff⟩

/-- An append that outlives its lease leaves two rows behind one predecessor. -/
theorem lease_outlived : ¬ ∀ (R : Runtime), ChainDigest R.sha256 → Json.FloatText R.floatRepr →
    ∀ c : AppendConfig, Reachable (appends R) fromEmpty c → SoundLog R c.world := by
  intro h
  have hrun : (((appends chainRuntime).run {} { world := freshWorld } overlappingAppends).any
      fun c => decide (c.world.audit.map AuditEvent.prevHash = [genesisHash, genesisHash])) =
        true := by decide +kernel
  obtain ⟨c, hc, hprev⟩ := Reachable.exists_of_run (D := fromEmpty) (w := freshWorld)
    ⟨fun _ _ => trivial, fun _ _ _ => trivial, fun _ _ _ => trivial⟩ rfl hrun
  have hapart := (h chainRuntime chainRuntime_digest Json.floatText_ratText c hc).apart
  rw [hprev] at hapart
  exact absurd hapart (by simp)

end AgentPay.Properties
