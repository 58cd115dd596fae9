import AgentPay.Gateway.Locks

/-!
# The owners of a lock

Any number of `DistributedLock` objects over one store, each entering and leaving its block while time
passes. A lease belongs to one object, and the exit of an object touches no lease of another; while
every object that is inside is within its lease, no two objects are inside one lock (`locks_owner_safe`).
The argument is about stores of leases and holds of the in-process store and of Redis alike.
-/

set_option autoImplicit false

namespace AgentPay.Properties

open AgentPay.Library AgentPay.Library.Machine AgentPay.Gateway

/-! ## The machine of locks -/

/-- An object of `DistributedLock` and its block: how often the block suspends, and how it ends. -/
structure LockJob where
  name : String
  ttl : ℕ
  pauses : ℕ
  failure : Option Exn := none

/-- The block under a lock. -/
def block (failure : Option Exn) : ℕ → Py Unit
  | 0 => match failure with
    | none => pure ()
    | some e => Prog.throw e
  | pauses + 1 => do
      perform .sleep
      block failure pauses

/-- The store with its clock. `granted` notes at which instant each token was granted; no operation
reads it. -/
structure LockWorld (S : Type) where
  clock : Time := 0
  nextUuid : ℕ := 0
  store : S
  granted : List (ℕ × Time) := []

namespace LockWorld

variable {S : Type} (L : LeaseStore S String Stored)

/-- The effect of a conditional acquisition. -/
def acquire (w : LockWorld S) (key : String) (token ttl : ℕ) : LockWorld S :=
  let result := L.setNx w.store w.clock key (.lockToken token) (seconds ttl)
  { w with
    store := result.1
    granted := if result.2 then (token, w.clock) :: w.granted else w.granted }

/-- The effect of a release. -/
def release (w : LockWorld S) (key : String) (token : ℕ) : LockWorld S :=
  { w with store := (L.deleteIfValue w.store w.clock key (.lockToken token)).1 }

/-- The state change of an operation. -/
def apply (w : LockWorld S) : Op → LockWorld S
  | .uuid4 => { w with nextUuid := w.nextUuid + 1 }
  | .setNx key token ttl => w.acquire L key token ttl
  | .deleteIfValue key token => w.release L key token
  | _ => w

/-- The answer of an operation that completes. -/
def value (w : LockWorld S) : (op : Op) → Option op.Val
  | .uuid4 => some w.nextUuid
  | .sleep => some ()
  | .setNx key token ttl =>
      some (L.setNx w.store w.clock key (.lockToken token) (seconds ttl)).2
  | .deleteIfValue key token =>
      some (L.deleteIfValue w.store w.clock key (.lockToken token)).2
  | _ => none

/-- One operation under an outcome. -/
def perform (w : LockWorld S) (op : Op) : Outcome → Option (LockWorld S × Except Exn op.Val)
  | .ok => (w.value L op).map fun v => (w.apply L op, .ok v)
  | .fault e applied =>
      if op.isLocal then none else some (if applied then w.apply L op else w, .error e)
  | _ => none

end LockWorld

/-- Concurrent objects of `DistributedLock`; the environment lets time pass. -/
def locks {S : Type} (L : LeaseStore S String Stored) :
    Machine (LockWorld S) LockJob Time Outcome Op Op.Val Exn Unit where
  start job := withLock job.name job.ttl (block job.failure job.pauses)
  perform := LockWorld.perform L
  environment w d := { w with clock := w.clock + d }

/-- Configurations of concurrent objects. -/
abbrev LockConfig (S : Type) := Machine.Config (LockWorld S) LockJob Outcome Op Op.Val Exn Unit

/-- The token of an object, and the key it has entered, with its token and its lease in seconds. -/
structure Holder where
  token : Option ℕ := none
  inside : Option (String × ℕ × ℕ) := none

/-- The protocol of an object: it acquires with its token, and releases what it acquired. -/
def holding : Protocol Op Op.Val Exn Holder where
  guard s op := match op with
    | .uuid4 => s.token = none
    | .sleep => True
    | .setNx _ token _ => s.token = some token
    | .deleteIfValue _ token => s.token = some token
    | _ => False
  next s op answer := match op, answer with
    | .uuid4, .ok n => { s with token := some n }
    | .setNx key token ttl, .ok true => { s with inside := some (key, token, ttl) }
    | .deleteIfValue _ _, _ => { s with inside := none }
    | _, _ => s

/-- The holder a thread is. -/
abbrev holderOf {S : Type} (c : LockConfig S) (tid : ℕ) : Option Holder :=
  c.session holding (fun _ => {}) tid

/-- The object has entered the key and not exited. -/
def Entered {S : Type} (c : LockConfig S) (tid : ℕ) (key : String) (token ttl : ℕ) : Prop :=
  ∃ s, holderOf c tid = some s ∧ s.inside = some (key, token, ttl)

/-- Every object that is inside is within its lease. -/
def InTime {S : Type} (c : LockConfig S) : Prop :=
  ∀ tid key token ttl, Entered c tid key token ttl →
    ∀ t, (token, t) ∈ c.world.granted → c.world.clock < t + seconds ttl

/-- Every object exits before its lease is over. -/
def inTime (S : Type) :
    Machine.Discipline (LockWorld S) LockJob Time Outcome Op Op.Val Exn Unit where
  spawn c _ := InTime c
  act c _ := InTime c
  run c _ := InTime c

/-- What the owners of locks may rely on. -/
structure OwnerSafe {S : Type} (L : LeaseStore S String Stored) : Prop where
  /-- A lease belongs to at most one object that has entered and not exited. -/
  one_owner : ∀ c : LockConfig S, Reachable (locks L) {} c → ∀ key token,
    L.lease c.world.store c.world.clock key = some (.lockToken token) →
      ∀ tid tid' ttl ttl', Entered c tid key token ttl → Entered c tid' key token ttl' → tid = tid'
  /-- The exit of an object changes no lease that another object holds. -/
  exit_spares : ∀ c : LockConfig S, Reachable (locks L) {} c → ∀ tid job key token next o w answer,
    c.threads[tid]? = some ⟨job, .call (.deleteIfValue key token) next⟩ →
      (locks L).perform c.world (.deleteIfValue key token) o = some (w, answer) →
        ∀ tid' s' key' token', tid' ≠ tid → holderOf c tid' = some s' → s'.token = some token' →
          L.lease c.world.store c.world.clock key' = some (.lockToken token') →
            ∀ now, c.world.clock ≤ now →
              L.lease w.store now key' = L.lease c.world.store now key'
  /-- While every object inside is within its lease, no two objects are inside one lock. -/
  exclusive : ∀ c : LockConfig S, Reachable (locks L) (inTime S) c → InTime c →
    ∀ key tid tid' token token' ttl ttl', Entered c tid key token ttl →
      Entered c tid' key token' ttl' → tid = tid'

/-! ## The protocol -/

theorem holding_acquire (name : String) (token ttl n : ℕ) {s : Holder}
    (hs : s.token = some token) : (Gateway.acquire name token ttl n).Follows holding s
      (fun _ s' => s'.token = some token) := by
  induction n with
  | zero => exact hs
  | succ n ih =>
      refine Prog.Follows.perform hs (fun taken => ?_) fun _ => hs
      cases taken with
      | true => exact hs
      | false => exact Prog.Follows.perform trivial (fun _ => ih) fun _ => hs

theorem holding_block (failure : Option Exn) (pauses : ℕ) (s : Holder) :
    (block failure pauses).Follows holding s (fun _ s' => s' = s) := by
  induction pauses with
  | zero => cases failure <;> rfl
  | succ pauses ih => exact Prog.Follows.perform trivial (fun _ => ih) fun _ => rfl

/-- An object follows the protocol. -/
theorem holding_locks {S : Type} (L : LeaseStore S String Stored) (job : LockJob) :
    ((locks L).start job).Follows holding {} (fun _ _ => True) := by
  refine Prog.Follows.perform rfl (fun token => ?_) fun _ => trivial
  refine (holding_acquire _ token _ _ rfl).bind (fun _ s hs => ?_) fun _ _ _ => trivial
  rw [Prog.follows_ensure]
  refine (holding_block _ _ s).mono fun r s' heq => ?_
  rw [heq]
  exact Prog.Follows.perform hs (fun _ => trivial) fun _ => trivial

/-! ## Invariants -/

section Invariants

variable {S : Type} {L : LeaseStore S String Stored}

/-- An operation does its effect or nothing. -/
theorem lockWorld_perform {w w' : LockWorld S} {op : Op} {o : Outcome} {answer : Except Exn op.Val}
    (h : w.perform L op o = some (w', answer)) : w' = w.apply L op ∨ w' = w := by
  cases o with
  | ok =>
      obtain ⟨v, -, heq⟩ := Option.map_eq_some_iff.1 h
      exact .inl (Prod.mk.inj heq).1.symm
  | fault e applied =>
      rw [LockWorld.perform] at h
      split at h
      · cases h
      · cases applied
        · exact .inr (Prod.mk.inj (Option.some.inj h)).1.symm
        · exact .inl (Prod.mk.inj (Option.some.inj h)).1.symm
  | _ => cases h

/-- An operation that answers with a value does its effect. -/
theorem lockWorld_perform_ok {w w' : LockWorld S} {op : Op} {o : Outcome} {v : op.Val}
    (h : w.perform L op o = some (w', .ok v)) : w' = w.apply L op ∧ w.value L op = some v := by
  cases o with
  | ok =>
      obtain ⟨v', hv, heq⟩ := Option.map_eq_some_iff.1 h
      obtain ⟨rfl, hv'⟩ := Prod.mk.inj heq
      cases hv'
      exact ⟨rfl, hv⟩
  | fault e applied =>
      rw [LockWorld.perform] at h
      split at h <;> cases h
  | _ => cases h

theorem apply_clock (w : LockWorld S) (op : Op) : (w.apply L op).clock = w.clock := by
  cases op <;> rfl

theorem nextUuid_le_apply (w : LockWorld S) (op : Op) : w.nextUuid ≤ (w.apply L op).nextUuid := by
  cases op <;> first | exact Nat.le_succ _ | exact le_rfl

theorem nextUuid_le_perform {w w' : LockWorld S} {op : Op} {o : Outcome}
    {answer : Except Exn op.Val} (h : w.perform L op o = some (w', answer)) :
    w.nextUuid ≤ w'.nextUuid := by
  rcases lockWorld_perform h with rfl | rfl
  · exact nextUuid_le_apply w op
  · exact le_rfl

/-- What an operation makes of a token: none, or the next one. -/
theorem token_next {w w' : LockWorld S} {op : Op} {o : Outcome} {answer : Except Exn op.Val}
    (h : w.perform L op o = some (w', answer)) (s : Holder) :
    (holding.next s op answer).token = s.token ∨
      (holding.next s op answer).token = some w.nextUuid ∧ w'.nextUuid = w.nextUuid + 1 := by
  cases op
  case uuid4 =>
      cases answer with
      | error e => exact .inl rfl
      | ok n =>
          obtain ⟨rfl, hv⟩ := lockWorld_perform_ok h
          cases hv
          exact .inr ⟨rfl, rfl⟩
  case setNx key token ttl =>
      cases answer with
      | error e => exact .inl rfl
      | ok taken => cases taken <;> exact .inl rfl
  all_goals exact .inl (by cases answer <;> rfl)

variable {D : Machine.Discipline (LockWorld S) LockJob Time Outcome Op Op.Val Exn Unit}
  {c : LockConfig S}

/-- Tokens were drawn. -/
theorem token_lt (hc : Reachable (locks L) D c) {tid : ℕ} {s : Holder}
    (hs : holderOf c tid = some s) : ∀ n, s.token = some n → n < c.world.nextUuid := by
  refine hc.thread_invariant holding (fun _ => {}) (holding_locks L)
    (I := fun w s => ∀ n, s.token = some n → n < w.nextUuid) ?_ ?_ ?_ ?_ hs
  · intro c job _ n hn
    cases hn
  · exact fun c d s _ _ h => h
  · intro c tid s op o w answer _ hp h n hn
    rcases token_next hp.perform s with heq | ⟨heq, hnext⟩
    · exact (h n (heq ▸ hn)).trans_le (nextUuid_le_perform hp.perform)
    · rw [heq, Option.some.injEq] at hn
      rw [hnext, ← hn]
      exact Nat.lt_succ_self _
  · exact fun c tid s op o w answer tid' s' _ hp _ _ h n hn =>
      (h n hn).trans_le (nextUuid_le_perform hp.perform)

/-- Two objects have different tokens. -/
theorem token_ne (hc : Reachable (locks L) D c) {tid tid' : ℕ} {s s' : Holder} (hne : tid ≠ tid')
    (hs : holderOf c tid = some s) (hs' : holderOf c tid' = some s') :
    ∀ n, s.token = some n → s'.token ≠ some n := by
  refine hc.pair_invariant holding (fun _ => {}) (holding_locks L)
    (I := fun _ s s' => ∀ n, s.token = some n → s'.token ≠ some n) ?_ ?_ ?_ ?_ ?_ hne hs hs'
  · exact fun _ s s' h n hn hn' => h n hn' hn
  · intro c job tid s _ _ n _ hn
    cases hn
  · exact fun c d s s' _ _ h => h
  · intro c tid s op o w answer tid' s' hc hp _ hs' h n hn hn'
    rcases token_next hp.perform s with heq | ⟨heq, -⟩
    · exact h n (heq ▸ hn) hn'
    · rw [heq, Option.some.injEq] at hn
      exact absurd (token_lt hc hs' n hn') (by omega)
  · exact fun c tid s op o w answer s' s'' _ _ h => h

/-- The object that is inside holds a lease, granted when it entered. -/
def HoldsLease (L : LeaseStore S String Stored) (w : LockWorld S) (s : Holder) : Prop :=
  ∀ key token ttl, s.inside = some (key, token, ttl) → s.token = some token ∧
    ∃ t, (token, t) ∈ w.granted ∧
      L.Holds w.store w.clock key (.lockToken token) (t + seconds ttl)

theorem granted_perform {w w' : LockWorld S} {op : Op} {o : Outcome} {answer : Except Exn op.Val}
    (h : w.perform L op o = some (w', answer)) : ∀ p ∈ w.granted, p ∈ w'.granted := by
  intro p hp
  rcases lockWorld_perform h with rfl | rfl
  · cases op
    case setNx key token ttl =>
        rw [LockWorld.apply, LockWorld.acquire]
        dsimp only
        split
        · exact List.mem_cons_of_mem _ hp
        · exact hp
    all_goals exact hp
  · exact hp

/-- A lease that has not run out outlasts every operation under another token. -/
theorem holds_perform {w w' : LockWorld S} {op : Op} {o : Outcome} {answer : Except Exn op.Val}
    (h : w.perform L op o = some (w', answer)) {key : String} {token : ℕ} {expiry : Time}
    (hlease : L.Holds w.store w.clock key (.lockToken token) expiry) (hlt : w.clock < expiry)
    (hother : ∀ key', op ≠ .deleteIfValue key' token) :
    L.Holds w'.store w'.clock key (.lockToken token) expiry := by
  rcases lockWorld_perform h with rfl | rfl
  · cases op
    case setNx key' token' ttl => exact hlease.setNx hlt key' _ _
    case deleteIfValue key' token' =>
        refine hlease.delete fun heq => ?_
        cases heq
        exact hother key' rfl
    all_goals exact hlease
  · exact hlease

/-- A grant leaves the lease and its instant behind. -/
theorem granted_acquire {w w' : LockWorld S} {key : String} {token ttl : ℕ} {o : Outcome}
    (h : w.perform L (.setNx key token ttl) o = some (w', .ok true)) :
    (token, w.clock) ∈ w'.granted ∧
      L.Holds w'.store w'.clock key (.lockToken token) (w.clock + seconds ttl) := by
  obtain ⟨rfl, hv⟩ := lockWorld_perform_ok h
  have htaken : (L.setNx w.store w.clock key (.lockToken token) (seconds ttl)).2 = true :=
    Option.some.inj hv
  have hfree : L.lease w.store w.clock key = none := by
    by_contra hne
    rw [(L.setNx_taken w.store w.clock key _ (seconds ttl) hne).1] at htaken
    cases htaken
  refine ⟨?_, (L.setNx_free w.store w.clock key _ (seconds ttl) hfree).2.1⟩
  rw [LockWorld.apply, LockWorld.acquire]
  dsimp only
  rw [if_pos htaken]
  exact List.mem_cons_self

/-- An object is inside the key it was in, or the one it was granted just now. -/
theorem inside_next {w w' : LockWorld S} {s : Holder} {op : Op} {o : Outcome}
    {answer : Except Exn op.Val} (hp : w.perform L op o = some (w', answer))
    (hg : holding.guard s op) {key : String} {token ttl : ℕ}
    (h : (holding.next s op answer).inside = some (key, token, ttl)) :
    s.inside = some (key, token, ttl) ∧ (∀ key' token', op ≠ .deleteIfValue key' token') ∨
      s.token = some token ∧ (token, w.clock) ∈ w'.granted ∧
        L.Holds w'.store w'.clock key (.lockToken token) (w.clock + seconds ttl) := by
  cases op
  case setNx key' token' ttl' =>
      cases answer with
      | error e => exact .inl ⟨h, fun _ _ hne => by cases hne⟩
      | ok taken =>
          cases taken with
          | false => exact .inl ⟨h, fun _ _ hne => by cases hne⟩
          | true =>
              cases h
              exact .inr ⟨hg, granted_acquire hp⟩
  case deleteIfValue key' token' => cases answer <;> cases h
  all_goals exact .inl ⟨by cases answer <;> exact h, fun _ _ hne => by cases hne⟩

/-- A token once drawn stays. -/
theorem token_kept {s : Holder} {op : Op} {answer : Except Exn op.Val} (hg : holding.guard s op)
    {token : ℕ} (h : s.token = some token) : (holding.next s op answer).token = some token := by
  cases op
  case uuid4 =>
      rw [holding] at hg
      exact absurd (h.symm.trans hg) (by simp)
  case setNx key token ttl =>
      cases answer with
      | error e => exact h
      | ok taken => cases taken <;> exact h
  all_goals cases answer <;> exact h

/-- An object is inside under its own token. -/
theorem inside_token (hc : Reachable (locks L) D c) {tid : ℕ} {s : Holder}
    (hs : holderOf c tid = some s) {key : String} {token ttl : ℕ}
    (hin : s.inside = some (key, token, ttl)) : s.token = some token := by
  refine hc.thread_invariant holding (fun _ => {}) (holding_locks L)
    (I := fun _ s => ∀ key token ttl, s.inside = some (key, token, ttl) → s.token = some token)
    ?_ ?_ ?_ ?_ hs key token ttl hin
  · intro c job _ key token ttl h
    cases h
  · exact fun c d s _ _ h => h
  · intro c tid s op o w answer _ hp h key token ttl hin
    rcases inside_next hp.perform hp.guard hin with ⟨hin, -⟩ | ⟨htoken, -⟩
    · exact token_kept hp.guard (h key token ttl hin)
    · exact token_kept hp.guard htoken
  · exact fun c tid s op o w answer tid' s' _ _ _ _ h => h

/-- While every object inside is within its lease, it holds that lease. -/
theorem holdsLease (hc : Reachable (locks L) (inTime S) c) {tid : ℕ} {s : Holder}
    (hs : holderOf c tid = some s) : HoldsLease L c.world s := by
  refine hc.thread_invariant holding (fun _ => {}) (holding_locks L) (I := HoldsLease L)
    ?_ ?_ ?_ ?_ hs
  · intro c job _ key token ttl h
    cases h
  · intro c d s _ _ h key token ttl hin
    obtain ⟨htoken, t, ht, hholds⟩ := h key token ttl hin
    exact ⟨htoken, t, ht, hholds.later (Nat.le_add_right _ _)⟩
  · intro c tid s op o w answer _ hp h key token ttl hin
    rcases inside_next hp.perform hp.guard hin with ⟨hold, hdelete⟩ | ⟨htoken, hgrant⟩
    · obtain ⟨htoken, t, ht, hholds⟩ := h key token ttl hold
      have hlt : c.world.clock < t + seconds ttl :=
        hp.discipline tid key token ttl ⟨s, hp.session, hold⟩ t ht
      exact ⟨token_kept hp.guard htoken, t, granted_perform hp.perform _ ht,
        holds_perform hp.perform hholds hlt fun key' => hdelete key' token⟩
    · exact ⟨token_kept hp.guard htoken, c.world.clock, hgrant⟩
  · -- another object releases under another token
    intro c tid s op o w answer tid' s' hc hp hne hs' h key token ttl hin
    obtain ⟨htoken, t, ht, hholds⟩ := h key token ttl hin
    have hlt : c.world.clock < t + seconds ttl :=
      hp.discipline tid' key token ttl ⟨s', hs', hin⟩ t ht
    refine ⟨htoken, t, granted_perform hp.perform _ ht, holds_perform hp.perform hholds hlt ?_⟩
    rintro key' rfl
    exact token_ne hc hne hs' hp.session token htoken hp.guard

end Invariants

/-- Every store of leases is safe for its owners. -/
theorem ownerSafe {S : Type} (L : LeaseStore S String Stored) : OwnerSafe L where
  one_owner c hc key token _ tid tid' ttl ttl' h h' := by
    obtain ⟨s, hs, hin⟩ := h
    obtain ⟨s', hs', hin'⟩ := h'
    by_contra hne
    exact token_ne hc hne hs hs' token (inside_token hc hs hin) (inside_token hc hs' hin')
  exit_spares c hc tid job key token next o w answer ht hp tid' s' key' token' hne hs' htoken'
      hlease now hnow := by
    obtain ⟨s, hs, hfollows⟩ := hc.follows holding (fun _ => {}) (holding_locks L) ht
    have htoken : s.token = some token := hfollows.1
    have hdiffer : token' ≠ token := by
      rintro rfl
      exact token_ne hc hne hs' hs token' htoken' htoken
    rcases lockWorld_perform hp with rfl | rfl
    · by_cases hkey : key' = key
      · subst hkey
        refine L.delete_other _ _ _ _ ?_ now hnow
        rw [hlease, Ne, Option.some.injEq, Stored.lockToken.injEq]
        exact hdiffer
      · exact L.delete_elsewhere _ _ _ _ now key' hnow hkey
    · rfl
  exclusive c hc hin key tid tid' token token' ttl ttl' h h' := by
    obtain ⟨s, hs, hinside⟩ := h
    obtain ⟨s', hs', hinside'⟩ := h'
    obtain ⟨htoken, t, ht, hholds⟩ := holdsLease hc hs key token ttl hinside
    obtain ⟨htoken', t', ht', hholds'⟩ := holdsLease hc hs' key token' ttl' hinside'
    have hsame : Stored.lockToken token = .lockToken token' :=
      hholds.unique hholds' (hin tid key token ttl ⟨s, hs, hinside⟩ t ht)
        (hin tid' key token' ttl' ⟨s', hs', hinside'⟩ t' ht')
    by_contra hne
    cases hsame
    exact token_ne hc hne hs hs' token htoken htoken'

end AgentPay.Properties
