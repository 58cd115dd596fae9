import AgentPay.Gateway.Keys
import AgentPay.Gateway.Locks

/-!
# The two stores

The in-process store and the Redis store with all the calls the gateway makes. Each call reads the
clock once. The in-process store drops an expired value when it is looked at and an old entry of a
window when a new one is inserted; Redis forgets a key once its time is up, and a window with it.

The keys come in families: values with an expiry, the set of revoked delegations, and windows, each
used with the calls of its kind.
-/

set_option autoImplicit false

namespace AgentPay.Gateway

open AgentPay.Library

/-- The calls of the store. The times to live and the widths of windows are seconds. -/
inductive StoreCall where
  | get (key : String)
  | set (key : String) (value : Stored) (ex : ℕ)
  | setNx (key : String) (value : Stored) (ex : ℕ)
  | deleteIfValue (key : String) (value : Stored)
  | sadd (key member : String)
  | srem (key member : String)
  | sismember (key member : String)
  | smembers (key : String)
  | zaddWindow (key : String) (window : ℕ)
  | zcountWindow (key : String) (window : ℕ)
deriving DecidableEq

/-- What a call returns. -/
inductive StoreReply where
  | value (value : Option Stored)
  | flag (flag : Bool)
  | done
  | members (members : Finset String)
  | count (count : ℕ)
deriving DecidableEq

/-- `z[member] = now` and `ZADD`: the entry of a member is replaced or added. -/
def zput (member : ℕ) (now : Time) (z : List (ℕ × Time)) : List (ℕ × Time) :=
  (z.filter fun m => decide (m.1 ≠ member)) ++ [(member, now)]

/-- A dictionary read with a default, after a key was written. -/
theorem getD_lookup_putKey {α : Type} (key k : String) (a d : α) (l : List (String × α)) :
    ((putKey key a l).lookup k).getD d = if k = key then a else (l.lookup k).getD d := by
  by_cases hk : k = key
  · rw [hk, if_pos rfl, lookup_putKey_self, Option.getD_some]
  · rw [if_neg hk, lookup_putKey_of_ne hk]

/-- A dictionary read with a default loses nothing with a key that has the default. -/
theorem getD_lookup_removeKey {α : Type} (key k : String) (d : α) (l : List (String × α)) :
    ((removeKey key l).lookup k).getD d = if k = key then d else (l.lookup k).getD d := by
  by_cases hk : k = key
  · rw [hk, if_pos rfl, lookup_removeKey_self, Option.getD_none]
  · rw [if_neg hk, lookup_removeKey_of_ne hk]

/-- A fresh member is added at the end. -/
theorem zput_fresh {member : ℕ} {z : List (ℕ × Time)} (h : ∀ m ∈ z, m.1 < member) (now : Time) :
    zput member now z = z ++ [(member, now)] := by
  rw [zput, List.filter_eq_self.2 fun m hm => decide_eq_true (h m hm).ne]

/-! ## The in-process store -/

/-- The state of `MemoryStore`. -/
structure MemoryStore where
  kv : MemoryKv := []
  sets : List (String × Finset String) := []
  zsets : List (String × List (ℕ × Time)) := []
deriving DecidableEq

/-- `MemoryStore.get`; an expired entry is dropped. -/
def MemoryKv.get (kv : MemoryKv) (now : Time) (key : String) : MemoryKv × Option Stored :=
  match kv.alive now key with
  | (kv, true) => (kv, (kv.lookup key).map Prod.fst)
  | (kv, false) => (kv, none)

/-- `MemoryStore.set`; a time to live of zero counts as none. -/
def MemoryKv.set (kv : MemoryKv) (now : Time) (key : String) (value : Stored) (ex : Time) :
    MemoryKv :=
  putKey key (value, if ex = 0 then none else some (now + ex)) kv

namespace MemoryKv

variable {kv : MemoryKv} {now : Time} {key : String}

theorem get_eq : kv.get now key = ((kv.alive now key).1, kv.lease now key) := by
  have hsnd := (alive_snd : (kv.alive now key).2 = _)
  have hlookup : ∀ v, kv.lease now key = some v →
      ((kv.alive now key).1.lookup key).map Prod.fst = some v := fun v => lookup_alive_of_lease
  rw [get]
  generalize kv.alive now key = dropped at hsnd hlookup
  obtain ⟨kv', alive⟩ := dropped
  cases hlease : kv.lease now key with
  | none =>
      rw [hlease] at hsnd
      subst hsnd
      rfl
  | some v =>
      rw [hlease] at hsnd
      subst hsnd
      exact congrArg (Prod.mk kv') (hlookup v hlease)

theorem deleteIfValue_snd (value : Stored) :
    (kv.deleteIfValue now key value).2 = decide (kv.lease now key = some value) := by
  have hget := (get_eq : kv.get now key = _)
  rw [get] at hget
  rw [deleteIfValue]
  generalize kv.alive now key = dropped at hget
  obtain ⟨kv', alive⟩ := dropped
  cases alive with
  | false =>
      simp only [Prod.mk.injEq, true_and] at hget
      rw [← hget]
      rfl
  | true =>
      simp only [Prod.mk.injEq, true_and] at hget
      rw [← hget]
      simp only
      split
      case isTrue h => rw [decide_eq_true h]
      case isFalse h => rw [decide_eq_false h]

end MemoryKv

namespace MemoryStore

/-- The members of a set. -/
def set (s : MemoryStore) (key : String) : Finset String := (s.sets.lookup key).getD ∅

/-- The entries of a window. -/
def zset (s : MemoryStore) (key : String) : List (ℕ × Time) := (s.zsets.lookup key).getD []

/-- `zadd_window` with the instant and the member it draws. -/
def zaddWindow (s : MemoryStore) (now : Time) (key : String) (window member : ℕ) :
    MemoryStore × ℕ :=
  let z := zput member now ((s.zset key).filter fun m => !decide (m.2 < now - seconds window))
  ({ s with zsets := putKey key z s.zsets }, z.length)

/-- The entries of a window since an instant. -/
def zcount (s : MemoryStore) (key : String) (since : Time) : ℕ :=
  ((s.zset key).filter fun m => decide (since ≤ m.2)).length

/-- A call at an instant; `member` is the identifier a `zadd_window` draws. -/
def call (s : MemoryStore) (now : Time) (member : ℕ) :
    StoreCall → MemoryStore × Except Exn StoreReply
  | .get key =>
      let (kv, value) := s.kv.get now key
      ({ s with kv := kv }, .ok (.value value))
  | .set key value ex => ({ s with kv := s.kv.set now key value (seconds ex) }, .ok (.flag true))
  | .setNx key value ex =>
      let (kv, taken) := s.kv.setNx now key value (seconds ex)
      ({ s with kv := kv }, .ok (.flag taken))
  | .deleteIfValue key value =>
      let (kv, deleted) := s.kv.deleteIfValue now key value
      ({ s with kv := kv }, .ok (.flag deleted))
  | .sadd key member => ({ s with sets := putKey key (insert member (s.set key)) s.sets }, .ok .done)
  | .srem key member =>
      ({ s with sets := putKey key ((s.set key).erase member) s.sets }, .ok .done)
  | .sismember key member => (s, .ok (.flag (decide (member ∈ s.set key))))
  | .smembers key => (s, .ok (.members (s.set key)))
  | .zaddWindow key window =>
      let (s, n) := s.zaddWindow now key window member
      (s, .ok (.count n))
  | .zcountWindow key window => (s, .ok (.count (s.zcount key (now - seconds window))))

end MemoryStore

/-! ## Redis -/

/-- The state of Redis, with a part for each family of keys. -/
structure RedisStore where
  kv : RedisKv := []
  sets : List (String × Finset String) := []
  zsets : List (String × ZSet) := []
deriving DecidableEq

namespace RedisStore

/-- The members of a set. -/
def set (s : RedisStore) (key : String) : Finset String := (s.sets.lookup key).getD ∅

/-- The entries of a window whose key is alive. -/
def zmembers (s : RedisStore) (now : Time) (key : String) : List (ℕ × Time) :=
  match s.zsets.lookup key with
  | some z => if now < z.expires then z.members else []
  | none => []

/-- `ZREMRANGEBYSCORE`, `ZADD`, `ZCARD` and `EXPIRE` in one pipeline. -/
def zaddWindow (s : RedisStore) (now : Time) (key : String) (window member : ℕ) :
    RedisStore × ℕ :=
  let z := zput member now
    ((s.zmembers now key).filter fun m => decide (now < m.2 + seconds window))
  ({ s with zsets := putKey key ⟨z, now + seconds (window * 2)⟩ s.zsets }, z.length)

/-- `ZCOUNT` from the beginning of the window. -/
def zcountWindow (s : RedisStore) (now : Time) (key : String) (window : ℕ) : ℕ :=
  ((s.zmembers now key).filter fun m => decide (now ≤ m.2 + seconds window)).length

/-- A call at an instant. Redis refuses a time to live of zero, and a set that loses its last member
is gone. -/
def call (s : RedisStore) (now : Time) (member : ℕ) :
    StoreCall → RedisStore × Except Exn StoreReply
  | .get key => (s, .ok (.value (s.kv.lease now key)))
  | .set key value ex =>
      if ex = 0 then (s, .error .other)
      else ({ s with kv := putKey key ⟨value, now + seconds ex⟩ s.kv }, .ok (.flag true))
  | .setNx key value ex =>
      if ex = 0 then (s, .error .other)
      else
        let (kv, taken) := s.kv.setNx now key value (seconds ex)
        ({ s with kv := kv }, .ok (.flag taken))
  | .deleteIfValue key value =>
      let (kv, deleted) := s.kv.deleteIfValue now key value
      ({ s with kv := kv }, .ok (.flag deleted))
  | .sadd key member => ({ s with sets := putKey key (insert member (s.set key)) s.sets }, .ok .done)
  | .srem key member =>
      let rest := (s.set key).erase member
      ({ s with sets := if rest = ∅ then removeKey key s.sets else putKey key rest s.sets },
        .ok .done)
  | .sismember key member => (s, .ok (.flag (decide (member ∈ s.set key))))
  | .smembers key => (s, .ok (.members (s.set key)))
  | .zaddWindow key window =>
      let (s, n) := s.zaddWindow now key window member
      (s, .ok (.count n))
  | .zcountWindow key window => (s, .ok (.count (s.zcountWindow now key window)))

end RedisStore

/-! ## The calls of the gateway -/

/-- The set of revoked delegations. -/
def revocationSet : String := "agentpay:revoked_delegations"

/-- The keys of the values the gateway reads and writes. -/
inductive ValueKey : String → Prop
  | idempotency (userId idempotencyKey : String) : ValueKey (idemKey userId idempotencyKey)
  | fingerprint (fingerprint : String) : ValueKey (fingerprintKey fingerprint)
  | approval (approvalRequestId : ℕ) : ValueKey (approvalKey approvalRequestId)

/-- The keys of the windows with their widths. -/
inductive WindowKey : String → ℕ → Prop
  | velocity (userId agentId : String) : WindowKey (velocityKey userId agentId) velocityWindow
  | agent (agentId : String) : WindowKey ("agentpay:rl:agent:" ++ agentId) rateLimitWindow
  | delegation (delegationId : String) :
      WindowKey ("agentpay:rl:deleg:" ++ delegationId) rateLimitWindow

/-- The calls the gateway and the control plane issue. -/
inductive Issued : StoreCall → Prop
  | get {key : String} (h : ValueKey key) : Issued (.get key)
  | set {key : String} (h : ValueKey key) (value : Stored) (ex : ℕ) : Issued (.set key value ex)
  | setNx (name : String) (token ex : ℕ) : Issued (.setNx (lockKey name) (.lockToken token) ex)
  | deleteIfValue (name : String) (token : ℕ) :
      Issued (.deleteIfValue (lockKey name) (.lockToken token))
  | sadd (delegationId : String) : Issued (.sadd revocationSet delegationId)
  | srem (delegationId : String) : Issued (.srem revocationSet delegationId)
  | sismember (delegationId : String) : Issued (.sismember revocationSet delegationId)
  | smembers : Issued (.smembers revocationSet)
  | zaddWindow {key : String} {window : ℕ} (h : WindowKey key window) :
      Issued (.zaddWindow key window)
  | zcountWindow {key : String} {window : ℕ} (h : WindowKey key window) :
      Issued (.zcountWindow key window)

/-- A velocity window is none of the edge rate limit. -/
theorem WindowKey.family_eq {key : String} {window : ℕ} (h : WindowKey key window) :
    window = if family key = some 'v' then velocityWindow else rateLimitWindow := by
  cases h with
  | velocity userId agentId => rw [family_velocityKey, if_pos rfl]
  | agent agentId =>
      have hfamily : family ("agentpay:rl:agent:" ++ agentId) = some 'r' :=
        getElem?_of_literal rfl _
      rw [hfamily, if_neg (by decide)]
  | delegation delegationId =>
      have hfamily : family ("agentpay:rl:deleg:" ++ delegationId) = some 'r' :=
        getElem?_of_literal rfl _
      rw [hfamily, if_neg (by decide)]

/-- A key is used with one width. -/
theorem WindowKey.unique {key : String} {window window' : ℕ} (h : WindowKey key window)
    (h' : WindowKey key window') : window = window' :=
  h.family_eq.trans h'.family_eq.symm

theorem WindowKey.pos {key : String} {window : ℕ} (h : WindowKey key window) : 0 < window := by
  cases h <;> decide

end AgentPay.Gateway
