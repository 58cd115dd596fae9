import AgentPay.Gateway.Stores

/-!
# The in-process store in place of Redis

Both stores answer a run of calls. They hold the same values, sets and windows, up to what has run
out: the in-process store forgets a value or an entry only when it meets it, Redis forgets a value
and a whole window at their time. They part company at the boundary, where one compares strictly and
the other does not: a value at the very instant of its expiry, and an entry exactly as old as the
window when another is inserted. They answer a run of calls alike exactly when no call of it is on
the boundary.
-/

set_option autoImplicit false

namespace AgentPay.Properties

open AgentPay.Library AgentPay.Gateway

/-! ## The correspondence -/

/-- The entries Redis stores under a key, whether or not the key has run out. -/
def stored (r : RedisStore) (key : String) : List (ℕ × Time) :=
  ((r.zsets.lookup key).map ZSet.members).getD []

/-- The two stores hold the same from an instant on; fewer than `n` identifiers have been drawn. -/
structure Alike (now : Time) (n : ℕ) (s : MemoryStore) (r : RedisStore) : Prop where
  values : ∀ key v exp, now ≤ exp →
    (s.kv.lookup key = some (v, some exp) ↔ r.kv.lookup key = some ⟨v, exp⟩)
  expiring : ∀ key v, s.kv.lookup key ≠ some (v, none)
  sets : ∀ key, s.set key = r.set key
  entries : ∀ key, s.zset key = stored r key
  fresh : ∀ key, ∀ m ∈ s.zset key, m.1 < n
  past : ∀ key, ∀ m ∈ s.zset key, m.2 ≤ now
  outlasts : ∀ key z window, r.zsets.lookup key = some z → WindowKey key window →
    ∀ m ∈ z.members, m.2 + seconds (window * 2) ≤ z.expires

/-- The empty stores. -/
theorem alike_empty : Alike 0 0 {} {} where
  values _ _ _ _ := by simp
  expiring _ _ := by simp
  sets _ := rfl
  entries _ := rfl
  fresh _ _ hm := absurd hm List.not_mem_nil
  past _ _ hm := absurd hm List.not_mem_nil
  outlasts _ _ _ h := by simp at h

namespace Alike

variable {now now' : Time} {n n' : ℕ} {s : MemoryStore} {r : RedisStore}

theorem later (h : Alike now n s r) (hle : now ≤ now') (hn : n ≤ n') : Alike now' n' s r where
  values key v exp hexp := h.values key v exp (hle.trans hexp)
  expiring := h.expiring
  sets := h.sets
  entries := h.entries
  fresh key m hm := (h.fresh key m hm).trans_le hn
  past key m hm := (h.past key m hm).trans hle
  outlasts := h.outlasts

/-! ### Values -/

variable {key : String}

/-- At the instant of its expiry a value is there in the process and gone in Redis. -/
theorem lease_boundary (h : Alike now n s r) {v : Stored}
    (hitem : s.kv.lookup key = some (v, some now)) :
    s.kv.lease now key = some v ∧ r.kv.lease now key = none := by
  have hentry := (h.values key v now le_rfl).1 hitem
  rw [MemoryKv.lease, RedisKv.lease, hitem, hentry, Option.bind_some, Option.bind_some]
  refine ⟨if_neg ?_, if_neg (lt_irrefl now)⟩
  rw [MemoryKv.lapsed, decide_eq_true_eq]
  exact lt_irrefl now

/-- At every other instant both stores have the value or neither has. -/
theorem lease_eq (h : Alike now n s r)
    (hoff : ∀ item, s.kv.lookup key = some item → item.2 ≠ some now) :
    s.kv.lease now key = r.kv.lease now key := by
  have hredis : ∀ e, r.kv.lookup key = some e → now < e.expires →
      s.kv.lookup key = some (e.value, some e.expires) := fun e he hlt =>
    (h.values key e.value e.expires hlt.le).2 he
  rw [MemoryKv.lease, RedisKv.lease]
  cases hitem : s.kv.lookup key with
  | none =>
      cases hentry : r.kv.lookup key with
      | none => rfl
      | some e =>
          rw [Option.bind_some, Option.bind_none, if_neg]
          intro hlt
          rw [hredis e hentry hlt] at hitem
          cases hitem
  | some item =>
      obtain ⟨v, exp⟩ := item
      cases exp with
      | none => exact absurd hitem (h.expiring key v)
      | some exp =>
          have hne : exp ≠ now := fun heq => hoff _ hitem (congrArg some heq)
          rw [Option.bind_some, MemoryKv.lapsed]
          by_cases hlapsed : exp < now
          · rw [if_pos (decide_eq_true hlapsed)]
            cases hentry : r.kv.lookup key with
            | none => rfl
            | some e =>
                rw [Option.bind_some, if_neg]
                intro hlt
                rw [hredis e hentry hlt] at hitem
                cases hitem
                exact absurd hlt hlapsed.not_gt
          · have hlt : now < exp := lt_of_le_of_ne (not_lt.1 hlapsed) hne.symm
            rw [if_neg (by rw [decide_eq_true_eq]; exact hlapsed),
              (h.values key v exp hlt.le).1 hitem, Option.bind_some, if_pos hlt]

theorem lease_eq_iff (h : Alike now n s r) : s.kv.lease now key = r.kv.lease now key ↔
    ∀ item, s.kv.lookup key = some item → item.2 ≠ some now := by
  refine ⟨fun heq item hitem hnow => ?_, h.lease_eq⟩
  obtain ⟨v, exp⟩ := item
  subst hnow
  obtain ⟨hmemory, hredis⟩ := h.lease_boundary hitem
  rw [hmemory, hredis] at heq
  cases heq

/-- Looking at a key keeps what has not run out. -/
theorem lookup_alive {kv : MemoryKv} (key k : String) {v : Stored} {exp : Time} (hexp : now ≤ exp) :
    (kv.alive now key).1.lookup k = some (v, some exp) ↔ kv.lookup k = some (v, some exp) := by
  rw [MemoryKv.alive]
  cases hitem : kv.lookup key with
  | none => rfl
  | some item =>
      simp only
      split
      case isFalse => rfl
      case isTrue hlapsed =>
          by_cases hk : k = key
          · subst hk
            rw [lookup_removeKey_self, hitem]
            refine iff_of_false (by simp) fun heq => ?_
            cases heq
            exact absurd (of_decide_eq_true hlapsed) hexp.not_gt
          · rw [lookup_removeKey_of_ne hk]

theorem lookup_alive_imp {kv : MemoryKv} {key k : String} {item : Stored × Option Time}
    (h : (kv.alive now key).1.lookup k = some item) : kv.lookup k = some item := by
  rw [MemoryKv.alive] at h
  cases hitem : kv.lookup key with
  | none =>
      rw [hitem] at h
      exact h
  | some looked =>
      rw [hitem] at h
      simp only at h
      split at h
      case isFalse => exact h
      case isTrue =>
          by_cases hk : k = key
          · subst hk
            rw [lookup_removeKey_self] at h
            cases h
          · rwa [lookup_removeKey_of_ne hk] at h

theorem look (h : Alike now n s r) (key : String) :
    Alike now n { s with kv := (s.kv.alive now key).1 } r :=
  { h with
    values := fun k v exp hexp => (lookup_alive key k hexp).trans (h.values k v exp hexp)
    expiring := fun k v hnone => h.expiring k v (lookup_alive_imp hnone) }

/-- Both stores take a value with its expiry. -/
theorem put (h : Alike now n s r) (key : String) (v : Stored) (exp : Time) :
    Alike now n { s with kv := putKey key (v, some exp) s.kv }
      { r with kv := putKey key ⟨v, exp⟩ r.kv } :=
  { h with
    values := fun k v' exp' hexp => by
      by_cases hk : k = key
      · subst hk
        rw [lookup_putKey_self, lookup_putKey_self]
        simp
      · rw [lookup_putKey_of_ne hk, lookup_putKey_of_ne hk]
        exact h.values k v' exp' hexp
    expiring := fun k v' hnone => by
      by_cases hk : k = key
      · subst hk
        rw [lookup_putKey_self] at hnone
        cases hnone
      · rw [lookup_putKey_of_ne hk] at hnone
        exact h.expiring k v' hnone }

/-- Both stores drop a value. -/
theorem remove (h : Alike now n s r) (key : String) :
    Alike now n { s with kv := removeKey key s.kv } { r with kv := removeKey key r.kv } :=
  { h with
    values := fun k v exp hexp => by
      by_cases hk : k = key
      · subst hk
        rw [lookup_removeKey_self, lookup_removeKey_self]
        exact iff_of_false (by simp) (by simp)
      · rw [lookup_removeKey_of_ne hk, lookup_removeKey_of_ne hk]
        exact h.values k v exp hexp
    expiring := fun k v hnone => by
      by_cases hk : k = key
      · subst hk
        rw [lookup_removeKey_self] at hnone
        cases hnone
      · rw [lookup_removeKey_of_ne hk] at hnone
        exact h.expiring k v hnone }

/-! ### Windows -/

section Windows

variable {window : ℕ}

theorem seconds_pos (h : 0 < window) : 0 < seconds window := Nat.mul_pos h (by decide)

theorem seconds_double (window : ℕ) : seconds (window * 2) = seconds window + seconds window := by
  rw [seconds, seconds, Nat.mul_assoc, Nat.mul_comm 2, ← Nat.mul_assoc, Nat.mul_two]

/-- Redis has the entries of a window, or has forgotten them when all were old. -/
theorem zmembers_cases (h : Alike now n s r) (hkey : WindowKey key window) :
    r.zmembers now key = s.zset key ∨
      r.zmembers now key = [] ∧ ∀ m ∈ s.zset key, m.2 + seconds window < now := by
  rw [h.entries, stored, RedisStore.zmembers]
  cases hz : r.zsets.lookup key with
  | none => exact .inl rfl
  | some z =>
      simp only
      by_cases hlt : now < z.expires
      · rw [if_pos hlt]
        exact .inl rfl
      · rw [if_neg hlt]
        refine .inr ⟨rfl, fun m hm => ?_⟩
        calc m.2 + seconds window
            < m.2 + seconds window + seconds window :=
              Nat.lt_add_of_pos_right (seconds_pos hkey.pos)
          _ = m.2 + seconds (window * 2) := by rw [seconds_double, Nat.add_assoc]
          _ ≤ z.expires := h.outlasts key z window hz hkey m hm
          _ ≤ now := not_lt.1 hlt

/-- Entries that are not old are seen in both stores. -/
theorem zmembers_filter (h : Alike now n s r) (hkey : WindowKey key window)
    {p : ℕ × Time → Bool} (hp : ∀ m, p m = true → now ≤ m.2 + seconds window) :
    (r.zmembers now key).filter p = (s.zset key).filter p := by
  rcases h.zmembers_cases hkey with heq | ⟨hnil, hold⟩
  · rw [heq]
  · rw [hnil, List.filter_nil, eq_comm, List.filter_eq_nil_iff]
    exact fun m hm hpm => (hold m hm).not_ge (hp m hpm)

theorem zcountWindow_eq (h : Alike now n s r) (hkey : WindowKey key window) :
    s.zcount key (now - seconds window) = r.zcountWindow now key window := by
  rw [RedisStore.zcountWindow, h.zmembers_filter hkey fun m hm => of_decide_eq_true hm,
    MemoryStore.zcount]
  refine congrArg List.length (List.filter_congr fun m _ => ?_)
  rw [decide_eq_decide]
  exact Nat.sub_le_iff_le_add

/-- What the in-process store keeps when it inserts, and what Redis keeps. -/
def youngerOrEqual (now : Time) (window : ℕ) (z : List (ℕ × Time)) : List (ℕ × Time) :=
  z.filter fun m => decide (now ≤ m.2 + seconds window)

def younger (now : Time) (window : ℕ) (z : List (ℕ × Time)) : List (ℕ × Time) :=
  z.filter fun m => decide (now < m.2 + seconds window)

theorem zaddWindow_memory (h : Alike now n s r) :
    s.zaddWindow now key window n =
      ({ s with zsets := putKey key (youngerOrEqual now window (s.zset key) ++ [(n, now)]) s.zsets },
        (youngerOrEqual now window (s.zset key)).length + 1) := by
  have hkept : ((s.zset key).filter fun m => !decide (m.2 < now - seconds window)) =
      youngerOrEqual now window (s.zset key) := by
    refine List.filter_congr fun m _ => ?_
    rw [← decide_not, decide_eq_decide]
    exact not_lt.trans Nat.sub_le_iff_le_add
  have hfresh : ∀ m ∈ youngerOrEqual now window (s.zset key), m.1 < n := fun m hm =>
    h.fresh key m (List.mem_of_mem_filter hm)
  rw [MemoryStore.zaddWindow, hkept, zput_fresh hfresh, List.length_append, List.length_singleton]

theorem zaddWindow_redis (h : Alike now n s r) (hkey : WindowKey key window) :
    r.zaddWindow now key window n =
      ({ r with
          zsets := putKey key
            ⟨younger now window (s.zset key) ++ [(n, now)], now + seconds (window * 2)⟩ r.zsets },
        (younger now window (s.zset key)).length + 1) := by
  have hfresh : ∀ m ∈ younger now window (s.zset key), m.1 < n := fun m hm =>
    h.fresh key m (List.mem_of_mem_filter hm)
  rw [RedisStore.zaddWindow, h.zmembers_filter hkey fun m hm => (of_decide_eq_true hm).le, ← younger,
    zput_fresh hfresh, List.length_append, List.length_singleton]

/-- As many entries are left in both stores exactly when none is as old as the window. -/
theorem length_younger_iff (now : Time) (window : ℕ) (z : List (ℕ × Time)) :
    (youngerOrEqual now window z).length = (younger now window z).length ↔
      ∀ m ∈ z, m.2 + seconds window ≠ now := by
  have hsublist : (younger now window z).Sublist (youngerOrEqual now window z) :=
    List.monotone_filter_right z fun m hm => decide_eq_true (of_decide_eq_true hm).le
  constructor
  · intro hlength m hm hold
    have heq : younger now window z = youngerOrEqual now window z :=
      hsublist.eq_of_length hlength.symm
    have hmem : m ∈ youngerOrEqual now window z :=
      List.mem_filter.2 ⟨hm, decide_eq_true hold.ge⟩
    rw [← heq] at hmem
    exact (of_decide_eq_true (List.mem_filter.1 hmem).2).ne hold.symm
  · intro hoff
    refine congrArg List.length (List.filter_congr fun m hm => ?_)
    rw [decide_eq_decide]
    exact ⟨fun hle => lt_of_le_of_ne hle (hoff m hm).symm, le_of_lt⟩

/-- Both stores insert into a window in which no entry is as old as the window. -/
theorem insert (h : Alike now n s r) (hkey : WindowKey key window)
    (hoff : ∀ m ∈ s.zset key, m.2 + seconds window ≠ now) :
    Alike now (n + 1) (s.zaddWindow now key window n).1 (r.zaddWindow now key window n).1 := by
  have hyounger : younger now window (s.zset key) = youngerOrEqual now window (s.zset key) := by
    refine List.filter_congr fun m hm => ?_
    rw [decide_eq_decide]
    exact ⟨le_of_lt, fun hle => lt_of_le_of_ne hle (hoff m hm).symm⟩
  rw [h.zaddWindow_memory, h.zaddWindow_redis hkey, hyounger]
  -- the entries of the window after the insertion
  have hzset : ∀ k, MemoryStore.zset { s with
      zsets := putKey key (youngerOrEqual now window (s.zset key) ++ [(n, now)]) s.zsets } k =
      if k = key then youngerOrEqual now window (s.zset key) ++ [(n, now)] else s.zset k :=
    fun k => getD_lookup_putKey key k _ [] s.zsets
  have hmem : ∀ m ∈ youngerOrEqual now window (s.zset key) ++ [(n, now)],
      m ∈ s.zset key ∨ m = (n, now) := fun m hm =>
    (List.mem_append.1 hm).imp List.mem_of_mem_filter List.mem_singleton.1
  have hpast : ∀ m ∈ youngerOrEqual now window (s.zset key) ++ [(n, now)], m.2 ≤ now := by
    intro m hm
    rcases hmem m hm with hm | rfl
    · exact h.past key m hm
    · exact le_rfl
  refine ⟨h.values, h.expiring, h.sets, fun k => ?_, fun k m hm => ?_, fun k m hm => ?_,
    fun k z window' hz hk m hm => ?_⟩
  · rw [hzset, stored]
    by_cases hk : k = key
    · rw [hk, if_pos rfl, lookup_putKey_self]
      rfl
    · rw [if_neg hk, lookup_putKey_of_ne hk, h.entries, stored]
  · rw [hzset] at hm
    split at hm
    · rcases hmem m hm with hm | rfl
      · exact (h.fresh key m hm).trans (Nat.lt_succ_self n)
      · exact Nat.lt_succ_self n
    · exact (h.fresh k m hm).trans (Nat.lt_succ_self n)
  · rw [hzset] at hm
    split at hm
    · exact hpast m hm
    · exact h.past k m hm
  · by_cases hkk : k = key
    · subst hkk
      rw [lookup_putKey_self] at hz
      cases hz
      rw [hk.unique hkey]
      exact Nat.add_le_add_right (hpast m hm) _
    · rw [lookup_putKey_of_ne hkk] at hz
      exact h.outlasts k z window' hz hk m hm

end Windows

end Alike

/-! ## Runs -/

/-- A call is off the boundary: what it looks at does not expire at this very instant, no entry of the
window it inserts into is exactly as old as the window, and a time to live is not zero. A conditional
deletion looks at the value it names. -/
def OffBoundary (s : MemoryStore) (now : Time) : StoreCall → Prop
  | .get key => ∀ item, s.kv.lookup key = some item → item.2 ≠ some now
  | .set _ _ ex => 0 < ex
  | .setNx key _ ex => 0 < ex ∧ ∀ item, s.kv.lookup key = some item → item.2 ≠ some now
  | .deleteIfValue key value => s.kv.lookup key ≠ some (value, some now)
  | .zaddWindow key window => ∀ m ∈ s.zset key, m.2 + seconds window ≠ now
  | _ => True

namespace Alike

variable {now : Time} {n : ℕ} {s : MemoryStore} {r : RedisStore} {key : String}

theorem exists_boundary
    (h : ¬ ∀ item, s.kv.lookup key = some item → item.2 ≠ some now) :
    ∃ v, s.kv.lookup key = some (v, some now) := by
  by_contra hnone
  refine h fun item hitem hexp => hnone ⟨item.1, ?_⟩
  rw [hitem, ← hexp]

/-- What a call does to two stores that hold the same. -/
def Kept (now : Time) (n : ℕ) (s : MemoryStore) (r : RedisStore) (c : StoreCall) : Prop :=
  ((s.call now n c).2 = (r.call now n c).2 ↔ OffBoundary s now c) ∧
    (OffBoundary s now c → Alike now (n + 1) (s.call now n c).1 (r.call now n c).1)

theorem kept_get (h : Alike now n s r) : Kept now n s r (.get key) := by
  constructor
  · change Except.ok (StoreReply.value (s.kv.get now key).2) = .ok (.value _) ↔ _
    rw [MemoryKv.get_eq, Except.ok.injEq, StoreReply.value.injEq]
    exact h.lease_eq_iff
  · intro _
    change Alike now (n + 1) { s with kv := (s.kv.get now key).1 } r
    rw [MemoryKv.get_eq]
    exact (h.look key).later le_rfl (Nat.le_succ n)

theorem seconds_ne_zero {ex : ℕ} (h : ex ≠ 0) : seconds ex ≠ 0 :=
  (seconds_pos (Nat.pos_of_ne_zero h)).ne'

theorem kept_set (h : Alike now n s r) (value : Stored) (ex : ℕ) :
    Kept now n s r (.set key value ex) := by
  rw [Kept, OffBoundary, MemoryStore.call, RedisStore.call]
  by_cases hex : ex = 0
  · rw [if_pos hex, hex]
    exact ⟨iff_of_false (by simp) (lt_irrefl 0), fun hlt => absurd hlt (lt_irrefl 0)⟩
  · rw [if_neg hex, MemoryKv.set, if_neg (seconds_ne_zero hex)]
    exact ⟨iff_of_true rfl (Nat.pos_of_ne_zero hex), fun _ =>
      (h.put key value _).later le_rfl (Nat.le_succ n)⟩

theorem kept_setNx (h : Alike now n s r) (value : Stored) (ex : ℕ) :
    Kept now n s r (.setNx key value ex) := by
  rw [Kept, OffBoundary, RedisStore.call]
  by_cases hex : ex = 0
  · rw [if_pos hex, hex, MemoryStore.call]
    exact ⟨iff_of_false (by simp) fun hlt => lt_irrefl 0 hlt.1,
      fun hlt => absurd hlt.1 (lt_irrefl 0)⟩
  · rw [if_neg hex, MemoryStore.call, MemoryKv.setNx_eq, RedisKv.setNx,
      if_neg (seconds_ne_zero hex)]
    by_cases hoff : ∀ item, s.kv.lookup key = some item → item.2 ≠ some now
    · rw [h.lease_eq hoff]
      have hcall := (⟨Nat.pos_of_ne_zero hex, hoff⟩ : 0 < ex ∧ _)
      by_cases htaken : (r.kv.lease now key).isSome = true
      · rw [if_pos htaken, if_pos htaken]
        exact ⟨iff_of_true rfl hcall, fun _ => (h.look key).later le_rfl (Nat.le_succ n)⟩
      · rw [if_neg htaken, if_neg htaken]
        exact ⟨iff_of_true rfl hcall, fun _ =>
          ((h.look key).put key value _).later le_rfl (Nat.le_succ n)⟩
    · -- the value is there in the process and gone in Redis
      obtain ⟨v, hitem⟩ := exists_boundary hoff
      obtain ⟨hmemory, hredis⟩ := h.lease_boundary hitem
      rw [hmemory, hredis]
      exact ⟨iff_of_false (by simp) fun hlt => hoff hlt.2, fun hlt => absurd hlt.2 hoff⟩

theorem kept_deleteIfValue (h : Alike now n s r) (value : Stored) :
    Kept now n s r (.deleteIfValue key value) := by
  have hredis : r.kv.deleteIfValue now key value =
      if r.kv.lease now key = some value then (removeKey key r.kv, true) else (r.kv, false) := rfl
  rw [Kept, OffBoundary, MemoryStore.call, RedisStore.call]
  simp only
  rw [MemoryKv.deleteIfValue_snd, MemoryKv.deleteIfValue_eq, hredis]
  by_cases hitem : s.kv.lookup key = some (value, some now)
  · obtain ⟨hlease, hgone⟩ := h.lease_boundary hitem
    rw [hlease, hgone]
    exact ⟨iff_of_false (by simp) (not_not.2 hitem), fun hoff => absurd hitem hoff⟩
  · -- another value may expire now; neither store deletes it
    have hsame : s.kv.lease now key = some value ↔ r.kv.lease now key = some value := by
      by_cases hoff : ∀ item, s.kv.lookup key = some item → item.2 ≠ some now
      · rw [h.lease_eq hoff]
      · obtain ⟨v, hother⟩ := exists_boundary hoff
        obtain ⟨hlease, hgone⟩ := h.lease_boundary hother
        rw [hlease, hgone]
        refine iff_of_false (fun heq => hitem ?_) (by simp)
        rw [hother, Option.some.inj heq]
    by_cases hvalue : r.kv.lease now key = some value
    · rw [if_pos hvalue, if_pos (hsame.2 hvalue), decide_eq_true (hsame.2 hvalue)]
      exact ⟨iff_of_true rfl hitem, fun _ =>
        ((h.look key).remove key).later le_rfl (Nat.le_succ n)⟩
    · have hother : ¬ s.kv.lease now key = some value := fun heq => hvalue (hsame.1 heq)
      rw [if_neg hvalue, if_neg hother, decide_eq_false hother]
      exact ⟨iff_of_true rfl hitem, fun _ => (h.look key).later le_rfl (Nat.le_succ n)⟩

/-- The sets may be replaced by others with the same members. -/
theorem withSets (h : Alike now n s r) {l l' : List (String × Finset String)}
    (heq : ∀ k, (l.lookup k).getD ∅ = (l'.lookup k).getD ∅) :
    Alike now n { s with sets := l } { r with sets := l' } :=
  { h with sets := heq }

theorem kept_sadd (h : Alike now n s r) (member : String) : Kept now n s r (.sadd key member) := by
  refine ⟨iff_of_true rfl trivial, fun _ => ?_⟩
  refine Alike.later (h.withSets fun k => ?_) le_rfl (Nat.le_succ n)
  rw [getD_lookup_putKey, getD_lookup_putKey, h.sets key]
  exact if_congr Iff.rfl rfl (h.sets k)

theorem kept_srem (h : Alike now n s r) (member : String) : Kept now n s r (.srem key member) := by
  refine ⟨iff_of_true rfl trivial, fun _ => ?_⟩
  refine Alike.later (h.withSets fun k => ?_) le_rfl (Nat.le_succ n)
  rw [getD_lookup_putKey, h.sets key]
  split
  case isTrue hrest =>
      split
      case isTrue hempty => rw [getD_lookup_removeKey, if_pos hrest, hempty]
      case isFalse => rw [getD_lookup_putKey, if_pos hrest]
  case isFalse hrest =>
      split
      case isTrue => rw [getD_lookup_removeKey, if_neg hrest]; exact h.sets k
      case isFalse => rw [getD_lookup_putKey, if_neg hrest]; exact h.sets k

theorem kept_sismember (h : Alike now n s r) (member : String) :
    Kept now n s r (.sismember key member) := by
  rw [Kept, MemoryStore.call, RedisStore.call, h.sets]
  exact ⟨iff_of_true rfl trivial, fun _ => h.later le_rfl (Nat.le_succ n)⟩

theorem kept_smembers (h : Alike now n s r) : Kept now n s r (.smembers key) := by
  rw [Kept, MemoryStore.call, RedisStore.call, h.sets]
  exact ⟨iff_of_true rfl trivial, fun _ => h.later le_rfl (Nat.le_succ n)⟩

theorem kept_zaddWindow (h : Alike now n s r) {window : ℕ} (hkey : WindowKey key window) :
    Kept now n s r (.zaddWindow key window) := by
  constructor
  · change Except.ok (StoreReply.count (s.zaddWindow now key window n).2) =
      .ok (.count (r.zaddWindow now key window n).2) ↔ _
    rw [h.zaddWindow_memory, h.zaddWindow_redis hkey, Except.ok.injEq, StoreReply.count.injEq,
      Nat.add_right_cancel_iff]
    exact length_younger_iff now window _
  · exact fun hoff => h.insert hkey hoff

theorem kept_zcountWindow (h : Alike now n s r) {window : ℕ} (hkey : WindowKey key window) :
    Kept now n s r (.zcountWindow key window) := by
  rw [Kept, MemoryStore.call, RedisStore.call, h.zcountWindow_eq hkey]
  exact ⟨iff_of_true rfl trivial, fun _ => h.later le_rfl (Nat.le_succ n)⟩

/-- Two stores that hold the same answer a call alike exactly off the boundary, and then still hold
the same. -/
theorem kept (h : Alike now n s r) {c : StoreCall} (hc : Issued c) : Kept now n s r c := by
  cases hc with
  | get _ => exact h.kept_get
  | set _ value ex => exact h.kept_set value ex
  | setNx name token ex => exact h.kept_setNx _ ex
  | deleteIfValue name token => exact h.kept_deleteIfValue _
  | sadd delegationId => exact h.kept_sadd delegationId
  | srem delegationId => exact h.kept_srem delegationId
  | sismember delegationId => exact h.kept_sismember delegationId
  | smembers => exact h.kept_smembers
  | zaddWindow hkey => exact h.kept_zaddWindow hkey
  | zcountWindow hkey => exact h.kept_zcountWindow hkey

end Alike

/-- The replies of the in-process store to a run of calls. The calls draw identifiers in order. -/
def memoryReplies : MemoryStore → ℕ → List (Time × StoreCall) → List (Except Exn StoreReply)
  | _, _, [] => []
  | s, n, (now, c) :: calls => (s.call now n c).2 :: memoryReplies (s.call now n c).1 (n + 1) calls

/-- The replies of Redis to a run of calls. -/
def redisReplies : RedisStore → ℕ → List (Time × StoreCall) → List (Except Exn StoreReply)
  | _, _, [] => []
  | r, n, (now, c) :: calls => (r.call now n c).2 :: redisReplies (r.call now n c).1 (n + 1) calls

/-- Every call of a run is off the boundary when it comes. -/
def OffBoundaries : MemoryStore → ℕ → List (Time × StoreCall) → Prop
  | _, _, [] => True
  | s, n, (now, c) :: calls => OffBoundary s now c ∧ OffBoundaries (s.call now n c).1 (n + 1) calls

theorem replies_eq_iff {now : Time} {n : ℕ} {s : MemoryStore} {r : RedisStore}
    (h : Alike now n s r) {calls : List (Time × StoreCall)}
    (hnow : ∀ c ∈ calls, now ≤ c.1) (horder : calls.Pairwise fun c d => c.1 ≤ d.1)
    (hissued : ∀ c ∈ calls, Issued c.2) :
    memoryReplies s n calls = redisReplies r n calls ↔ OffBoundaries s n calls := by
  induction calls generalizing now n s r with
  | nil => exact iff_of_true rfl trivial
  | cons c calls ih =>
      obtain ⟨t, c⟩ := c
      obtain ⟨hlater, horder⟩ := List.pairwise_cons.1 horder
      obtain ⟨hreply, hkept⟩ := (h.later (hnow _ List.mem_cons_self) le_rfl).kept
        (hissued _ List.mem_cons_self)
      rw [memoryReplies, redisReplies, List.cons.injEq, OffBoundaries, hreply]
      refine and_congr_right fun hoff => ?_
      exact ih (hkept hoff) (fun d hd => hlater d hd) horder fun d hd =>
        hissued d (List.mem_cons_of_mem _ hd)

/-- In every run of calls of the gateway with a clock that does not go back, the in-process store and
Redis return the same exactly when no call is on the boundary. -/
theorem same_replies_iff (calls : List (Time × StoreCall))
    (horder : calls.Pairwise fun c d => c.1 ≤ d.1) (hissued : ∀ c ∈ calls, Issued c.2) :
    memoryReplies {} 0 calls = redisReplies {} 0 calls ↔ OffBoundaries {} 0 calls :=
  replies_eq_iff alike_empty (fun _ _ => Nat.zero_le _) horder hissued

/-- A lock is asked for by a second holder after a while. -/
def secondHolder (t : Time) : List (Time × StoreCall) :=
  [(0, .setNx (lockKey "audit_chain") (.lockToken 7) 15),
    (t, .setNx (lockKey "audit_chain") (.lockToken 8) 15)]

theorem secondHolder_issued (t : Time) : ∀ c ∈ secondHolder t, Issued c.2 := by
  intro c hc
  rcases List.mem_cons.1 hc with rfl | hc
  · exact .setNx _ _ _
  · rw [List.mem_singleton.1 hc]
    exact .setNx _ _ _

theorem same_replies_early :
    memoryReplies {} 0 (secondHolder 1) = redisReplies {} 0 (secondHolder 1) := by
  refine (same_replies_iff _ (by decide) (secondHolder_issued 1)).2
    ⟨⟨Nat.succ_pos _, fun _ hitem => ?_⟩, ⟨Nat.succ_pos _, fun item hitem => ?_⟩, trivial⟩
  · cases hitem
  · obtain rfl := Option.some.inj hitem
    decide

/-- When the lock expires, Redis grants it and the in-process store does not. -/
theorem expiry_differs : ¬ (∀ calls : List (Time × StoreCall),
    (calls.Pairwise fun c d => c.1 ≤ d.1) → (∀ c ∈ calls, Issued c.2) →
      memoryReplies {} 0 calls = redisReplies {} 0 calls) := by
  intro h
  have hsame := h (secondHolder (seconds 15)) (by decide) (secondHolder_issued _)
  revert hsame
  decide

end AgentPay.Properties
