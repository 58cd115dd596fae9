import AgentPay.Gateway.Keys
import AgentPay.Properties.PolicyDecision
import AgentPay.Properties.Scenario

/-!
# Who found a slot free

A request is allowed only when it looked up the slot of its fingerprint and did not find the payment
of another request in it. Between this lookup and the reservation of the slot other requests look it
up as well; the locks around the section are leases, and the reservation comes last. A run keeps the
slots when a lookup that finds the slot free comes after every rival that found its own slot free has
ended, and finds the payment of every rival that won (`slotsKept`). In such a run no two rivals stand,
each still running or having won (`one_rival_stands`). Who is a rival, and what is won, are parameters.
-/

set_option autoImplicit false

namespace AgentPay.Properties

open AgentPay.Library AgentPay.Library.Machine AgentPay.Library.Rego AgentPay.Policies
  AgentPay.Gateway

/-- A thread of the gateway. -/
abbrev RequestThread := Machine.Thread Job Op Op.Val Exn Response

/-- An intent and the fingerprint whose slot is looked up for it. -/
structure SlotLookup where
  intent : PaymentIntent
  fingerprint : String

/-- The slot holds the payment of another request. -/
def HeldByOther (c : Config) (tid : ℕ) (slot : Option Stored) : Prop :=
  ∃ t s id, t ≠ tid ∧ sessionOf c t = some s ∧ id ∈ s.drawn ∧
    slot = some (.paymentAuthorizationId id)

/-- The request looked up its slot and did not find the payment of another request in it. -/
def FoundFree (c : Config) (tid : ℕ) (x : SlotLookup) : Prop :=
  ∃ s seen, sessionOf c tid = some s ∧ s.intent = some x.intent ∧
    s.lastGet = some (fingerprintKey x.fingerprint, seen) ∧ ¬ HeldByOther c tid seen

/-- The request has not ended. -/
def Running (c : Config) (tid : ℕ) : Prop :=
  ∃ job op next, c.threads[tid]? = some ⟨job, .call op next⟩

/-- Every request has ended. -/
def allEnded (c : Config) : Bool := c.threads.all fun thread => thread.prog.result?.isSome

theorem not_running_of_allEnded {c : Config} (h : allEnded c = true) (t : ℕ) : ¬ Running c t := by
  rintro ⟨job, op, next, ht⟩
  cases List.all_eq_true.1 h _ (List.mem_of_getElem? ht)

/-- The request has won. -/
def HasWon (won : RequestThread → Session → Bool) (c : Config) (tid : ℕ) : Prop :=
  ∃ thread s, c.threads[tid]? = some thread ∧ sessionOf c tid = some s ∧ won thread s = true

/-- The request has not ended, or it has won. -/
def StillStands (won : RequestThread → Session → Bool) (c : Config) (tid : ℕ) : Prop :=
  Running c tid ∨ HasWon won c tid

/-- Whenever a request looks up its slot, every rival that found its own slot free has ended, and if
it has won, the slot holds a payment of another request. -/
def slotsKept (rival : SlotLookup → SlotLookup → Prop) (won : RequestThread → Session → Bool) :
    Discipline where
  run c ev := ∀ s x t y, sessionOf c ev.tid = some s → s.intent = some x.intent →
    ev.op = .get (fingerprintKey x.fingerprint) → t ≠ ev.tid → rival x y → FoundFree c t y →
    ¬ Running c t ∧
      (HasWon won c t → HeldByOther c ev.tid (c.world.lookup (fingerprintKey x.fingerprint)))

/-! ## One step -/

section Steps

variable {c : Config} {tid : ℕ} {s : Session} {op : Op} (answer : Except Exn op.Val)

theorem intent_next (s : Session) : (s.next op answer).intent = s.intent := by
  cases op
  case commitState id target reference detail => cases target <;> cases answer <;> rfl
  all_goals cases answer <;> rfl

theorem lastGet_next_of_ne (s : Session) (h : ∀ key, op ≠ .get key) :
    (s.next op answer).lastGet = s.lastGet := by
  cases op
  case get key => exact absurd rfl (h key)
  case commitState id target reference detail => cases target <;> cases answer <;> rfl
  all_goals cases answer <;> rfl

theorem drawn_subset_next (s : Session) : ∀ n ∈ s.drawn, n ∈ (s.next op answer).drawn := by
  intro n hn
  by_cases h : op = .uuid4
  · subst h
    cases answer with
    | error e => exact hn
    | ok m => exact List.mem_cons_of_mem m hn
  · rwa [drawn_next_of_ne answer s h]

end Steps

/-- The sessions of the later configuration are those of the earlier one, further on. -/
def SessionsGrow (c c' : Config) : Prop :=
  ∀ t s, sessionOf c t = some s → ∃ s', sessionOf c' t = some s' ∧ ∀ n ∈ s.drawn, n ∈ s'.drawn

section Steps

variable {won : RequestThread → Session → Bool} {c c' : Config} {tid : ℕ}

/-- A payment of another request stays one. -/
theorem HeldByOther.mono {slot : Option Stored} (hgrow : SessionsGrow c c')
    (h : HeldByOther c tid slot) : HeldByOther c' tid slot := by
  obtain ⟨t, s, id, hne, hs, hid, hslot⟩ := h
  obtain ⟨s', hs', hdrawn⟩ := hgrow t s hs
  exact ⟨t, s', id, hne, hs', hdrawn id hid, hslot⟩

/-- What a request found free in the later configuration it had found free before, unless it looked
in between. -/
theorem FoundFree.before {x : SlotLookup} (hgrow : SessionsGrow c c')
    (hsame : ∀ s', sessionOf c' tid = some s' → ∃ s, sessionOf c tid = some s ∧
      s'.intent = s.intent ∧ s'.lastGet = s.lastGet) (h : FoundFree c' tid x) :
    FoundFree c tid x := by
  obtain ⟨s', seen, hs', hintent, hget, hfree⟩ := h
  obtain ⟨s, hs, hintent', hget'⟩ := hsame s' hs'
  exact ⟨s, seen, hs, hintent'.symm.trans hintent, hget'.symm.trans hget,
    fun hheld => hfree (hheld.mono hgrow)⟩

/-- A request stands as long as its thread and its session stay. -/
theorem StillStands.congr (hthread : c'.threads[tid]? = c.threads[tid]?)
    (hsession : sessionOf c' tid = sessionOf c tid) (h : StillStands won c' tid) :
    StillStands won c tid := by
  rcases h with ⟨job, op, next, hrun⟩ | ⟨thread, s, ht, hs, hwon⟩
  · exact .inl ⟨job, op, next, hthread ▸ hrun⟩
  · exact .inr ⟨thread, s, hthread ▸ ht, hsession ▸ hs, hwon⟩

end Steps

/-! ## Runs -/

/-- Of two rivals that found their slots free, one has ended without winning. -/
def OneRivalStands (rival : SlotLookup → SlotLookup → Prop)
    (won : RequestThread → Session → Bool) (c : Config) : Prop :=
  ∀ t t' x y, t ≠ t' → rival x y → FoundFree c t x → FoundFree c t' y →
    StillStands won c t → ¬ StillStands won c t'

section Runs

variable {R : Runtime} {rival : SlotLookup → SlotLookup → Prop}
  {won : RequestThread → Session → Bool} {c : Config}

theorem OneRivalStands.spawn (h : OneRivalStands rival won c) {job : Job}
    (heq : (c.spawn (machine R) job).session custody Job.session =
      Function.update (c.session custody Job.session) c.threads.length (some job.session)) :
    OneRivalStands rival won (c.spawn (machine R) job) := by
  have hnew : c.session custody Job.session c.threads.length = none := by
    simp [Config.session]
  have hother : ∀ t, t ≠ c.threads.length →
      sessionOf (c.spawn (machine R) job) t = sessionOf c t := by
    intro t ht
    rw [sessionOf, heq, Function.update_of_ne ht]
  have hgrow : SessionsGrow c (c.spawn (machine R) job) := by
    intro t s hs
    refine ⟨s, ?_, fun _ hn => hn⟩
    rw [hother t, hs]
    rintro rfl
    cases hnew.symm.trans hs
  -- a request that has just been started has looked up nothing
  have hold : ∀ {t x}, FoundFree (c.spawn (machine R) job) t x → FoundFree c t x ∧
      (StillStands won (c.spawn (machine R) job) t → StillStands won c t) := by
    rintro t x hx
    have ht : t ≠ c.threads.length := by
      rintro rfl
      obtain ⟨s, seen, hs, -, hget, -⟩ := hx
      rw [sessionOf, heq, Function.update_self, Option.some.injEq] at hs
      subst hs
      rw [job.session_eq] at hget
      cases hget
    refine ⟨hx.before hgrow fun s' hs' => ⟨s', (hother t ht).symm.trans hs', rfl, rfl⟩, ?_⟩
    refine StillStands.congr ?_ (hother t ht)
    obtain ⟨s, -, hs, -⟩ := hx
    rw [hother t ht] at hs
    obtain ⟨thread, hthread, -⟩ := Option.map_eq_some_iff.1 hs
    rw [Config.spawn, List.getElem?_append_left (List.getElem?_eq_some_iff.1 hthread).1]
  intro t t' x y hne hrival hx hy hstands hstands'
  obtain ⟨hx, hstays⟩ := hold hx
  obtain ⟨hy, hstays'⟩ := hold hy
  exact h t t' x y hne hrival hx hy (hstays hstands) (hstays' hstands')

/-- The answer to a lookup is the value of the key. -/
theorem get_ok {w w' : World} {key : String} {o : Outcome} {v : Option Stored}
    (h : w.perform (.get key) o = some (w', .ok v)) : v = w.lookup key := by
  obtain ⟨-, ha⟩ := World.perform_ok h
  cases o <;> simp only [World.answer, World.value, reduceCtorEq, Option.some.injEq,
    Except.ok.injEq] at ha
  exact ha.symm

theorem OneRivalStands.advance (hsymm : ∀ x y, rival x y → rival y x)
    (h : OneRivalStands rival won c) {tid : ℕ} {s : Session} {job : Job} {op : Op}
    {next : Except Exn op.Val → Py Response} {o : Outcome} {w : World}
    {answer : Except Exn op.Val} (ht : c.threads[tid]? = some ⟨job, .call op next⟩)
    (hp : Performing R (slotsKept rival won) c tid s op o w answer)
    (heq : (c.advance ⟨job, next answer⟩ w ⟨tid, op, o, answer⟩).session custody Job.session =
      Function.update (c.session custody Job.session) tid (some (custody.next s op answer))) :
    OneRivalStands rival won (c.advance ⟨job, next answer⟩ w ⟨tid, op, o, answer⟩) := by
  generalize hc' : c.advance ⟨job, next answer⟩ w ⟨tid, op, o, answer⟩ = c' at heq ⊢
  have hother : ∀ t, t ≠ tid → sessionOf c' t = sessionOf c t := by
    intro t hne
    rw [sessionOf, heq, Function.update_of_ne hne]
  have hself : sessionOf c' tid = some (s.next op answer) := by
    rw [sessionOf, heq, Function.update_self]
    rfl
  have hthread : ∀ t, t ≠ tid → c'.threads[t]? = c.threads[t]? := by
    intro t hne
    rw [← hc', Config.advance, List.getElem?_set_ne (Ne.symm hne)]
  have hgrow : SessionsGrow c c' := by
    intro t s' hs'
    by_cases hne : t = tid
    · subst hne
      cases hp.session.symm.trans hs'
      exact ⟨_, hself, drawn_subset_next answer s⟩
    · exact ⟨s', (hother t hne).trans hs', fun _ hn => hn⟩
  have hbefore : ∀ {t x}, t ≠ tid → FoundFree c' t x → FoundFree c t x := by
    intro t x hne hx
    exact hx.before hgrow fun s' hs' => ⟨s', (hother t hne).symm.trans hs', rfl, rfl⟩
  have hstays : ∀ {t}, t ≠ tid → StillStands won c' t → StillStands won c t :=
    fun hne => StillStands.congr (hthread _ hne) (hother _ hne)
  -- a rival of the thread that moves has ended without winning, by the lookup or from before
  have hrivals : ∀ {t x y}, t ≠ tid → rival x y → FoundFree c' tid x → FoundFree c t y →
      ¬ StillStands won c t := by
    intro t x y hne hrival hx hy hstands
    by_cases hlook : ∃ key v, op = .get key ∧ HEq answer (Except.ok v : Except Exn (Option Stored))
    · obtain ⟨key, v, rfl, hv⟩ := hlook
      cases hv
      obtain ⟨s', seen, hs', hintent, hget, hfree⟩ := hx
      cases hself.symm.trans hs'
      obtain ⟨rfl, rfl⟩ := Prod.mk.inj (Option.some.inj hget)
      obtain ⟨hended, hheld⟩ := hp.discipline s x t y hp.session hintent rfl hne hrival hy
      rcases hstands with hrun | hwon
      · exact hended hrun
      · have hslot := hheld hwon
        rw [← get_ok hp.perform] at hslot
        exact hfree (hslot.mono hgrow)
    · have hget : (s.next op answer).lastGet = s.lastGet := by
        cases op
        case get key =>
            cases answer with
            | error e => rfl
            | ok v => exact absurd ⟨key, v, rfl, HEq.rfl⟩ hlook
        all_goals exact lastGet_next_of_ne answer s (by rintro _ ⟨⟩)
      have hx' : FoundFree c tid x := by
        refine hx.before hgrow fun s' hs' => ?_
        cases hself.symm.trans hs'
        exact ⟨s, hp.session, intent_next answer s, hget⟩
      exact h tid t x y (Ne.symm hne) hrival hx' hy (.inl ⟨job, op, next, ht⟩) hstands
  intro t t' x y hne hrival hx hy hstands hstands'
  by_cases htid : t = tid
  · subst htid
    have hne' : t' ≠ t := Ne.symm hne
    exact hrivals hne' hrival hx (hbefore hne' hy) (hstays hne' hstands')
  · by_cases htid' : t' = tid
    · subst htid'
      exact hrivals hne (hsymm x y hrival) hy (hbefore hne hx) (hstays hne hstands)
    · exact h t t' x y hne hrival (hbefore htid hx) (hbefore htid' hy) (hstays htid hstands)
        (hstays htid' hstands')

/-- In a run that keeps the slots, of two rivals that found their slots free one has ended without
winning. -/
theorem one_rival_stands (hsymm : ∀ x y, rival x y → rival y x)
    (hc : Reachable (machine R) (slotsKept rival won) c) : OneRivalStands rival won c := by
  refine Reachable.invariant custody Job.session (job_follows R)
    (I := OneRivalStands rival won) ?_ ?_ ?_ ?_ hc
  · rintro w - t t' x y - - ⟨s, seen, hs, -⟩
    cases hs
  · exact fun c job _ ih _ heq => ih.spawn heq
  · exact fun c env _ ih _ => ih
  · exact fun c tid s job op next o w answer _ ih ht hp heq => ih.advance hsymm ht hp heq

/-- At the lookup of a slot every other request has ended, and if it has won, its payment is in the
slot. -/
def othersSettled (won : RequestThread → Session → Bool) (c : Config) (ev : Event) : Bool :=
  match ev.op with
  | .get key => decide (family key ≠ some 'f') ||
      (List.range c.threads.length).all fun t => decide (t = ev.tid) ||
        ((c.threads[t]?).any fun thread => (sessionOf c t).any fun s => thread.prog.result?.isSome &&
          (!won thread s || (match c.world.lookup key with
            | some (.paymentAuthorizationId id) => decide (id ∈ s.drawn)
            | _ => false)))
  | _ => true

/-- A run in which the other requests are settled at every lookup keeps the slots. -/
theorem slotsKept_checked (rival : SlotLookup → SlotLookup → Prop)
    (won : RequestThread → Session → Bool) :
    (slotsKept rival won).Checked { run := othersSettled won } := by
  refine ⟨fun _ _ => trivial, fun _ _ _ => trivial, ?_⟩
  rintro c ⟨tid, op, o, answer⟩ hcheck s x t y hs hintent rfl hne hrival ⟨s', seen, hs', -⟩
  simp only [othersSettled, family_fingerprintKey, ne_eq, not_true_eq_false, decide_false,
    Bool.false_or, List.all_eq_true, List.mem_range] at hcheck
  obtain ⟨thread, hthread, hreplay⟩ := Option.map_eq_some_iff.1 hs'
  have ht := hcheck t (List.getElem?_eq_some_iff.1 hthread).1
  rw [hthread, hs'] at ht
  simp only [hne, decide_false, Bool.false_or, Option.any_some, Bool.and_eq_true,
    Bool.or_eq_true, Bool.not_eq_true'] at ht
  obtain ⟨hended, hwins⟩ := ht
  constructor
  · rintro ⟨job, op, next, hrun⟩
    cases hthread.symm.trans hrun
    cases hended
  · rintro ⟨thread', s'', hthread', hs'', hwon⟩
    cases hthread.symm.trans hthread'
    cases hs'.symm.trans hs''
    rcases hwins with hlost | hslot
    · cases hlost.symm.trans hwon
    · split at hslot
      · rename_i id hlookup
        exact ⟨t, s', id, hne, hs', of_decide_eq_true hslot, hlookup⟩
      · cases hslot

/-! ## Who is allowed -/

/-- A request that is allowed found the slot of its fingerprint free. -/
theorem foundFree_of_allowed {D : Discipline} (hc : Reachable (machine R) D c) {tid : ℕ}
    {s : Session} (hs : sessionOf c tid = some s) {txn : CanonicalTransaction} {verdict : PDPResult}
    (htxn : s.txn = some txn) (hverdict : s.verdict = some verdict)
    (hallow : verdict.decision = .allow) :
    ∃ intent, Canonical s txn intent ∧ FoundFree c tid ⟨intent, txn.fingerprint⟩ := by
  have hsound := session_sound hc hs
  obtain ⟨intent, hcanonical⟩ := hsound.canonical txn htxn
  obtain ⟨e, hm, hdeny⟩ := hsound.no_denial hverdict hallow
  obtain rfl : e.txn = txn := Option.some.inj (hm.txn.symm.trans htxn)
  have hduplicates : Duplicates.deny (buildInput e) = [] := by
    simp only [denyReasons, union_eq_nil, List.forall_mem_cons] at hdeny
    exact hdeny.2.2.2.2.2.1
  obtain ⟨hidem, hfp⟩ := (duplicates_deny_iff e).1 hduplicates
  obtain ⟨seen, hget, hslot⟩ := hm.duplicate hidem hfp
  refine ⟨intent, hcanonical, s, seen, hs, hcanonical.ofIntent, hget, ?_⟩
  rintro ⟨t, s', id, hne, hs', hid, rfl⟩
  -- the slot held the request's own payment, which no other request drew
  have hown : id = e.txn.paymentAuthorizationId := not_not.1 (of_decide_eq_false hslot)
  exact drawn_disjoint hc hne hs' hs id hid (hown ▸ hcanonical.drawn)

/-- A request that was issued a credential found the slot of its fingerprint free. -/
theorem foundFree_of_issued {D : Discipline} (hc : Reachable (machine R) D c) {tid : ℕ}
    {s : Session} (hs : sessionOf c tid = some s) (hissued : s.issued.isSome = true) :
    ∃ txn intent, s.txn = some txn ∧ Canonical s txn intent ∧
      FoundFree c tid ⟨intent, txn.fingerprint⟩ := by
  have hsound := session_sound hc hs
  obtain ⟨claims, hclaims⟩ := Option.isSome_iff_exists.1 hissued
  obtain ⟨row, hrow, hallow, -⟩ := hsound.credential claims hclaims
  obtain ⟨txn, verdict, risk, t, htxn, hverdict, rfl⟩ := hsound.recorded row hrow
  obtain ⟨intent, hcanonical, hfree⟩ := foundFree_of_allowed hc hs htxn hverdict hallow
  exact ⟨txn, intent, htxn, hcanonical, hfree⟩

end Runs

end AgentPay.Properties
