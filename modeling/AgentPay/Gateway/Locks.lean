import AgentPay.Gateway.Store
import AgentPay.Library.Lease

/-!
# The locks of the two stores

The in-process store and Redis as stores of leases, and the objects of `DistributedLock` over one of
them. The in-process store drops an expired entry when it is looked at; Redis compares and deletes in
one script.
-/

set_option autoImplicit false

namespace AgentPay.Gateway

open AgentPay.Library

/-! ## The in-process store -/

/-- `MemoryStore._kv`: a value with its expiry, if it has one. -/
abbrev MemoryKv := List (String × (Stored × Option Time))

namespace MemoryKv

/-- An expiry lies in the past. -/
def lapsed (now : Time) : Option Time → Bool
  | some exp => decide (exp < now)
  | none => false

/-- `MemoryStore._alive`; an expired entry is dropped. -/
def alive (kv : MemoryKv) (now : Time) (key : String) : MemoryKv × Bool :=
  match kv.lookup key with
  | none => (kv, false)
  | some item => if lapsed now item.2 then (removeKey key kv, false) else (kv, true)

/-- `MemoryStore.set_nx`. -/
def setNx (kv : MemoryKv) (now : Time) (key : String) (value : Stored) (ex : Time) :
    MemoryKv × Bool :=
  match kv.alive now key with
  | (kv, true) => (kv, false)
  | (kv, false) => (putKey key (value, if ex = 0 then none else some (now + ex)) kv, true)

/-- `MemoryStore.delete_if_value`. -/
def deleteIfValue (kv : MemoryKv) (now : Time) (key : String) (value : Stored) : MemoryKv × Bool :=
  match kv.alive now key with
  | (kv, true) =>
      if (kv.lookup key).map Prod.fst = some value then (removeKey key kv, true) else (kv, false)
  | (kv, false) => (kv, false)

/-- `MemoryStore.get`, without the dropping of an expired entry. -/
def lease (kv : MemoryKv) (now : Time) (key : String) : Option Stored :=
  (kv.lookup key).bind fun item => if lapsed now item.2 then none else some item.1

variable {kv : MemoryKv} {now : Time} {key : String}

theorem lapsed_later {now' : Time} {exp : Option Time} (h : lapsed now exp = true)
    (hle : now ≤ now') : lapsed now' exp = true := by
  cases exp with
  | none => cases h
  | some exp => exact decide_eq_true ((of_decide_eq_true h).trans_le hle)

/-- Dropping an expired entry is not seen from then on. -/
theorem lease_alive {now' : Time} (hle : now ≤ now') (key k : String) :
    (kv.alive now key).1.lease now' k = kv.lease now' k := by
  rw [alive]
  cases hitem : kv.lookup key with
  | none => rfl
  | some item =>
      simp only
      split
      case isTrue hlapsed =>
          by_cases hk : k = key
          · subst hk
            rw [lease, lease, lookup_removeKey_self, hitem, Option.bind_none, Option.bind_some,
              if_pos (lapsed_later hlapsed hle)]
          · rw [lease, lease, lookup_removeKey_of_ne hk]
      case isFalse => rfl

/-- A key is alive when it has a lease. -/
theorem alive_snd : (kv.alive now key).2 = (kv.lease now key).isSome := by
  rw [alive, lease]
  cases kv.lookup key with
  | none => rfl
  | some item =>
      simp only [Option.bind_some]
      split <;> rfl

theorem lookup_alive_of_lease {v : Stored} (h : kv.lease now key = some v) :
    ((kv.alive now key).1.lookup key).map Prod.fst = some v := by
  rw [lease] at h
  obtain ⟨item, hitem, h⟩ := Option.bind_eq_some_iff.1 h
  rw [alive, hitem]
  simp only
  split at h
  case isTrue => cases h
  case isFalse hlapsed =>
      rw [if_neg hlapsed]
      simpa [hitem] using h

theorem lease_putKey_self {now' : Time} {item : Stored × Option Time}
    (h : lapsed now' item.2 = false) : lease (putKey key item kv) now' key = some item.1 := by
  rw [lease, lookup_putKey_self, Option.bind_some, if_neg (by rw [h]; exact Bool.false_ne_true)]

theorem lease_putKey_of_ne {now' : Time} {item : Stored × Option Time} {k : String} (hk : k ≠ key) :
    lease (putKey key item kv) now' k = kv.lease now' k := by
  rw [lease, lease, lookup_putKey_of_ne hk]

theorem lease_removeKey_of_ne {now' : Time} {k : String} (hk : k ≠ key) :
    lease (removeKey key kv) now' k = kv.lease now' k := by
  rw [lease, lease, lookup_removeKey_of_ne hk]

theorem setNx_eq (value : Stored) (ex : Time) : kv.setNx now key value ex =
    if (kv.lease now key).isSome then ((kv.alive now key).1, false)
    else (putKey key (value, if ex = 0 then none else some (now + ex)) (kv.alive now key).1,
      true) := by
  rw [setNx, ← alive_snd]
  obtain ⟨kv', alive⟩ := kv.alive now key
  cases alive <;> rfl

theorem deleteIfValue_eq (value : Stored) : (kv.deleteIfValue now key value).1 =
    if kv.lease now key = some value then removeKey key (kv.alive now key).1
    else (kv.alive now key).1 := by
  have hsnd := (alive_snd : (kv.alive now key).2 = _)
  have hlookup : ∀ v, kv.lease now key = some v →
      ((kv.alive now key).1.lookup key).map Prod.fst = some v := fun v => lookup_alive_of_lease
  rw [deleteIfValue]
  generalize kv.alive now key = dropped at hsnd hlookup
  obtain ⟨kv', alive⟩ := dropped
  cases hlease : kv.lease now key with
  | none =>
      rw [hlease] at hsnd
      subst hsnd
      rfl
  | some v =>
      rw [hlease] at hsnd
      subst hsnd
      simp only [Option.isSome_some] at hlookup ⊢
      rw [hlookup v hlease]
      split <;> rfl

end MemoryKv

/-- The in-process store as a store of leases. -/
def memoryStore : LeaseStore MemoryKv String Stored where
  lease := MemoryKv.lease
  setNx := MemoryKv.setNx
  deleteIfValue := MemoryKv.deleteIfValue
  setNx_taken kv now key value ex h := by
    rw [MemoryKv.setNx_eq, if_pos (Option.isSome_iff_ne_none.2 h)]
    exact ⟨rfl, fun now' k hle => MemoryKv.lease_alive hle key k⟩
  setNx_free kv now key value ex h := by
    rw [MemoryKv.setNx_eq, h, if_neg (by simp)]
    refine ⟨rfl, fun now' _ hlt => MemoryKv.lease_putKey_self ?_, fun now' k hle hk => ?_⟩
    · have hnow : ¬ now + ex < now' := Nat.not_lt.2 hlt.le
      by_cases hex : ex = 0
      · rw [if_pos hex]
        rfl
      · rw [if_neg hex]
        exact decide_eq_false hnow
    · rw [MemoryKv.lease_putKey_of_ne hk, MemoryKv.lease_alive hle]
  delete_elsewhere kv now key value now' k hle hk := by
    rw [MemoryKv.deleteIfValue_eq]
    split
    · rw [MemoryKv.lease_removeKey_of_ne hk, MemoryKv.lease_alive hle]
    · exact MemoryKv.lease_alive hle key k
  delete_other kv now key value h now' hle := by
    rw [MemoryKv.deleteIfValue_eq, if_neg h]
    exact MemoryKv.lease_alive hle key key

/-! ## Redis -/

/-- The keys of Redis with their expiries. -/
abbrev RedisKv := List (String × Entry)

namespace RedisKv

/-- `GET` of a key that is alive. -/
def lease (kv : RedisKv) (now : Time) (key : String) : Option Stored :=
  (kv.lookup key).bind fun e => if now < e.expires then some e.value else none

/-- `SET key value NX EX ex`. -/
def setNx (kv : RedisKv) (now : Time) (key : String) (value : Stored) (ex : Time) :
    RedisKv × Bool :=
  if (kv.lease now key).isSome then (kv, false) else (putKey key ⟨value, now + ex⟩ kv, true)

/-- The script `_UNLOCK`. -/
def deleteIfValue (kv : RedisKv) (now : Time) (key : String) (value : Stored) : RedisKv × Bool :=
  if kv.lease now key = some value then (removeKey key kv, true) else (kv, false)

end RedisKv

/-- Redis as a store of leases. -/
def redisStore : LeaseStore RedisKv String Stored where
  lease := RedisKv.lease
  setNx := RedisKv.setNx
  deleteIfValue := RedisKv.deleteIfValue
  setNx_taken kv now key value ex h := by
    rw [RedisKv.setNx, if_pos (Option.isSome_iff_ne_none.2 h)]
    exact ⟨rfl, fun _ _ _ => rfl⟩
  setNx_free kv now key value ex h := by
    rw [RedisKv.setNx, h, if_neg (by simp)]
    refine ⟨rfl, fun now' _ hlt => ?_, fun now' k _ hk => ?_⟩
    · rw [RedisKv.lease, lookup_putKey_self, Option.bind_some, if_pos hlt]
    · rw [RedisKv.lease, RedisKv.lease, lookup_putKey_of_ne hk]
  delete_elsewhere kv now key value now' k _ hk := by
    rw [RedisKv.deleteIfValue]
    split
    · rw [RedisKv.lease, RedisKv.lease, lookup_removeKey_of_ne hk]
    · rfl
  delete_other kv now key value h now' _ := by
    rw [RedisKv.deleteIfValue, if_neg h]

/-- The commands of the gateway's world are those of Redis. -/
theorem apply_setNx (w : World) (key : String) (token ttl : ℕ) :
    (w.apply (.setNx key token ttl)).kv =
      (redisStore.setNx w.kv w.clock key (.lockToken token) (seconds ttl)).1 := by
  change World.kv (if (w.lookup key).isSome then w else _) = (RedisKv.setNx _ _ _ _ _).1
  rw [RedisKv.setNx]
  change _ = (if (w.lookup key).isSome then _ else _ : RedisKv × Bool).1
  split <;> rfl

theorem apply_deleteIfValue (w : World) (key : String) (token : ℕ) :
    (w.apply (.deleteIfValue key token)).kv =
      (redisStore.deleteIfValue w.kv w.clock key (.lockToken token)).1 := by
  change World.kv (if w.lookup key = some (.lockToken token) then _ else w) =
    (RedisKv.deleteIfValue _ _ _ _).1
  rw [RedisKv.deleteIfValue]
  change _ = (if w.lookup key = some (.lockToken token) then _ else _ : RedisKv × Bool).1
  split <;> rfl

end AgentPay.Gateway
