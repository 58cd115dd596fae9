import AgentPay.Gateway.Stores
import AgentPay.Library.SlidingWindow
import AgentPay.Properties.Scenario

/-!
# The window of the edge rate limit

Calls of the edge rate limit one after another over the in-process store. The log of insertions is
kept beside the store, which forgets old entries. The entries of a window answer for its part of the
log from the last insertion on, and every entry was let in while fewer than the limit were recent,
so each log is paced. A rejected call only looks.
-/

set_option autoImplicit false

namespace AgentPay.Properties

open AgentPay.Library AgentPay.Gateway

/-- The in-process store with the clock readings of a call, those taken so far, and the log of the
insertions into windows. -/
structure MemoryWorld where
  store : MemoryStore := {}
  nextUuid : ℕ := 0
  clock : ℕ → Time := fun _ => 0
  readings : ℕ := 0
  inserted : List (String × Time) := []

namespace MemoryWorld

/-- The operations of the edge rate limit. -/
def answer (w : MemoryWorld) : (op : Op) → Except Exn op.Val × MemoryWorld
  | .now => (.ok (w.clock w.readings), { w with readings := w.readings + 1 })
  | .uuid4 => (.ok w.nextUuid, { w with nextUuid := w.nextUuid + 1 })
  | .zcount key since => (.ok (w.store.zcount key since), w)
  | .zadd key window now member =>
      (.ok (w.store.zaddWindow now key window member).2,
        { w with
          store := (w.store.zaddWindow now key window member).1
          inserted := w.inserted ++ [(key, now)] })
  | _ => (.error .other, w)

/-- The instants of the insertions under a key. -/
def recorded (w : MemoryWorld) (key : String) : List Time :=
  (w.inserted.filter fun e => decide (e.1 = key)).map Prod.snd

/-- The instants the store keeps under a key. -/
def kept (w : MemoryWorld) (key : String) : List Time := (w.store.zset key).map Prod.snd

end MemoryWorld

/-- A call of the edge rate limit with its clock readings in order. -/
structure EdgeCall where
  agentId : String
  delegationId : String
  clock : ℕ → Time

/-- The clock does not go back, in a call or from one call to the next. -/
def InOrder (calls : List EdgeCall) : Prop :=
  (∀ c ∈ calls, Monotone c.clock) ∧ calls.Pairwise fun c d => ∀ i j, c.clock i ≤ d.clock j

namespace MemoryWorld

/-- One call. -/
def enforce (R : Runtime) (w : MemoryWorld) (c : EdgeCall) : Except Exn Unit × MemoryWorld :=
  (enforceEdgeRateLimit R c.agentId c.delegationId).eval answer
    { w with clock := c.clock, readings := 0 }

/-- The outcomes of the calls. -/
def outcomes (R : Runtime) : MemoryWorld → List EdgeCall → List (Except Exn Unit)
  | _, [] => []
  | w, c :: calls => (w.enforce R c).1 :: outcomes R (w.enforce R c).2 calls

/-- The world after the calls. -/
def after (R : Runtime) : MemoryWorld → List EdgeCall → MemoryWorld
  | w, [] => w
  | w, c :: calls => after R (w.enforce R c).2 calls

end MemoryWorld

/-- A call that was refused. -/
def rejected : Except Exn Unit → Bool
  | .error (.rateLimitError _ _) => true
  | _ => false

/-- The calls that were not refused. -/
def remaining (R : Runtime) (w : MemoryWorld) (calls : List EdgeCall) : List EdgeCall :=
  ((calls.zip (w.outcomes R calls)).filter fun p => !rejected p.2).map Prod.fst

/-- The width of the window of the edge rate limit. -/
abbrev edgeWidth : Time := seconds rateLimitWindow

/-! ## One call -/

namespace MemoryWorld

/-- An insertion with its reading of the clock. -/
def insert (w : MemoryWorld) (key : String) : MemoryWorld :=
  { w with
    store := (w.store.zaddWindow (w.clock w.readings) key rateLimitWindow w.nextUuid).1
    nextUuid := w.nextUuid + 1
    readings := w.readings + 1
    inserted := w.inserted ++ [(key, w.clock w.readings)] }

/-- The recording of a request under a ceiling. -/
def record (w : MemoryWorld) (key : String) (limit : ℤ) : MemoryWorld :=
  if 0 < limit then w.insert key else w

/-- A ceiling that applies was not met at one of the first readings. -/
def Room (w : MemoryWorld) (key : String) (limit : ℤ) (n : ℕ) : Prop :=
  0 < limit → ∃ i < n, (w.store.zcount key (w.clock i - edgeWidth) : ℤ) < limit

variable {w : MemoryWorld} {key : String} {limit : ℤ}

theorem eval_recordRequest :
    (recordRequest key limit).eval answer w = (.ok (), w.record key limit) := by
  rw [recordRequest, record]
  split <;> rfl

/-- A check refuses the request or finds room, and only reads. -/
theorem checkCeiling_cases (w : MemoryWorld) (key : String) (limit : ℤ) (scope : String) :
    ∃ n, w.readings ≤ n ∧
      ((checkCeiling key limit scope).eval answer w =
          (.error (.rateLimitError scope limit), { w with readings := n }) ∨
        (checkCeiling key limit scope).eval answer w = (.ok (), { w with readings := n }) ∧
          w.Room key limit n) := by
  by_cases hlimit : 0 < limit
  · refine ⟨w.readings + 1, Nat.le_succ _, ?_⟩
    rw [checkCeiling, if_pos hlimit]
    by_cases hover : limit ≤ (w.store.zcount key (w.clock w.readings - edgeWidth) : ℤ)
    · refine .inl ?_
      change (if limit ≤ (w.store.zcount key _ : ℤ) then Prog.throw _ else pure () :
        Py Unit).eval answer _ = _
      rw [if_pos hover]
      rfl
    · refine .inr ⟨?_, fun _ => ⟨w.readings, Nat.lt_succ_self _, not_le.1 hover⟩⟩
      change (if limit ≤ (w.store.zcount key _ : ℤ) then Prog.throw _ else pure () :
        Py Unit).eval answer _ = _
      rw [if_neg hover]
      rfl
  · refine ⟨w.readings, le_rfl, .inr ⟨?_, fun h => absurd h hlimit⟩⟩
    rw [checkCeiling, if_neg hlimit]
    rfl

/-- A call is refused after looking only, or accepted: with the limit switched off, or with room
under both ceilings and a record under each. -/
theorem enforce_cases (R : Runtime) (w : MemoryWorld) (c : EdgeCall) :
    (∃ scope limit n, w.enforce R c =
        (.error (.rateLimitError scope limit), { w with clock := c.clock, readings := n })) ∨
      (R.settings.edgeRateLimitEnabled = false ∧
        w.enforce R c = (.ok (), { w with clock := c.clock, readings := 0 })) ∨
      ∃ n, { w with clock := c.clock, readings := n }.Room ("agentpay:rl:agent:" ++ c.agentId)
            R.settings.edgeRateLimitAgentPerMin n ∧
          { w with clock := c.clock, readings := n }.Room ("agentpay:rl:deleg:" ++ c.delegationId)
            R.settings.edgeRateLimitDelegationPerMin n ∧
          w.enforce R c = (.ok (),
            ({ w with clock := c.clock, readings := n }.record
              ("agentpay:rl:agent:" ++ c.agentId) R.settings.edgeRateLimitAgentPerMin).record
                ("agentpay:rl:deleg:" ++ c.delegationId)
                R.settings.edgeRateLimitDelegationPerMin) := by
  rw [enforce, enforceEdgeRateLimit]
  split
  case isFalse hoff => exact .inr (.inl ⟨Bool.eq_false_iff.2 hoff, rfl⟩)
  case isTrue =>
      rw [Prog.eval_recover]
      obtain ⟨n, -, hagent⟩ := checkCeiling_cases { w with clock := c.clock, readings := 0 }
        ("agentpay:rl:agent:" ++ c.agentId) R.settings.edgeRateLimitAgentPerMin
        ("agent " ++ c.agentId)
      rcases hagent with hagent | ⟨hagent, hroom⟩
      · rw [Prog.eval_bind, hagent]
        exact .inl ⟨_, _, n, rfl⟩
      · obtain ⟨m, hm, hdelegation⟩ := checkCeiling_cases { w with clock := c.clock, readings := n }
          ("agentpay:rl:deleg:" ++ c.delegationId) R.settings.edgeRateLimitDelegationPerMin
          ("delegation " ++ c.delegationId)
        rw [Prog.eval_bind, hagent]
        simp only
        rcases hdelegation with hdelegation | ⟨hdelegation, hroom'⟩
        · rw [Prog.eval_bind, hdelegation]
          exact .inl ⟨_, _, m, rfl⟩
        · rw [Prog.eval_bind, hdelegation]
          simp only
          rw [Prog.eval_bind, eval_recordRequest]
          simp only
          rw [eval_recordRequest]
          refine .inr (.inr ⟨m, fun hlimit => ?_, hroom', rfl⟩)
          obtain ⟨i, hi, hcount⟩ := hroom hlimit
          exact ⟨i, hi.trans_le hm, hcount⟩

/-! ## The store and the log -/

@[simp] theorem record_clock : (w.record key limit).clock = w.clock := by
  rw [record]
  split <;> rfl

theorem readings_le_record : w.readings ≤ (w.record key limit).readings := by
  rw [record]
  split
  · exact Nat.le_succ _
  · exact le_rfl

theorem recorded_insert_self :
    (w.insert key).recorded key = w.recorded key ++ [w.clock w.readings] := by
  change ((w.inserted ++ [(key, w.clock w.readings)]).filter _).map _ = _
  rw [List.filter_append, List.map_append, List.filter_cons, if_pos (decide_eq_true rfl)]
  rfl

theorem recorded_insert_of_ne {key' : String} (h : key' ≠ key) :
    (w.insert key).recorded key' = w.recorded key' := by
  change ((w.inserted ++ [(key, w.clock w.readings)]).filter _).map _ = _
  rw [List.filter_append, List.map_append, List.filter_cons,
    if_neg (by rw [decide_eq_true_eq]; exact h.symm), List.filter_nil, List.map_nil,
    List.append_nil]
  rfl

theorem recorded_record_of_ne {key' : String} (h : key' ≠ key) :
    (w.record key limit).recorded key' = w.recorded key' := by
  rw [record]
  split
  · exact recorded_insert_of_ne h
  · rfl

/-- The store has the recent part of the log under every key, and no identifier is drawn twice. -/
structure Faithful (w : MemoryWorld) (now : Time) : Prop where
  fresh : ∀ key, ∀ m ∈ w.store.zset key, m.1 < w.nextUuid
  answers : ∀ key, AnswersFor edgeWidth now (w.kept key) (w.recorded key)

theorem zset_insert_self (w : MemoryWorld) (key : String) :
    (w.insert key).store.zset key = zput w.nextUuid (w.clock w.readings)
      ((w.store.zset key).filter fun m => !decide (m.2 < w.clock w.readings - edgeWidth)) := by
  change ((putKey key _ w.store.zsets).lookup key).getD [] = _
  rw [getD_lookup_putKey, if_pos rfl]

theorem zset_insert_of_ne {key' : String} (h : key' ≠ key) :
    (w.insert key).store.zset key' = w.store.zset key' := by
  change ((putKey key _ w.store.zsets).lookup key').getD [] = _
  rw [getD_lookup_putKey, if_neg h, MemoryStore.zset]

/-- What the store keeps of a window when it inserts. -/
theorem map_pruned (z : List (ℕ × Time)) (now width : Time) :
    (z.filter fun m => !decide (m.2 < now - width)).map Prod.snd =
      recent width now (z.map Prod.snd) := by
  rw [recent, List.filter_map]
  congr 1
  refine List.filter_congr fun m _ => ?_
  rw [Function.comp_apply, ← decide_not, decide_eq_decide]
  exact not_lt.trans Nat.sub_le_iff_le_add

theorem kept_insert_self {now : Time} (h : w.Faithful now) : (w.insert key).kept key =
    recent edgeWidth (w.clock w.readings) (w.kept key) ++ [w.clock w.readings] := by
  rw [kept, zset_insert_self, zput_fresh fun m hm => h.fresh key m (List.mem_of_mem_filter hm),
    List.map_append, map_pruned]
  rfl

variable {now now' : Time}

theorem Faithful.later (h : w.Faithful now) (hle : now ≤ now') : w.Faithful now' :=
  ⟨h.fresh, fun key => (h.answers key).later hle⟩

theorem Faithful.insert (h : w.Faithful now) (hle : now ≤ w.clock w.readings) :
    (w.insert key).Faithful (w.clock w.readings) := by
  refine ⟨fun key' m hm => ?_, fun key' => ?_⟩
  · by_cases hkey : key' = key
    · subst hkey
      rw [zset_insert_self, zput_fresh fun m hm => h.fresh key' m (List.mem_of_mem_filter hm)] at hm
      rcases List.mem_append.1 hm with hm | hm
      · exact (h.fresh key' m (List.mem_of_mem_filter hm)).trans (Nat.lt_succ_self _)
      · rw [List.mem_singleton.1 hm]
        exact Nat.lt_succ_self _
    · rw [zset_insert_of_ne hkey] at hm
      exact (h.fresh key' m hm).trans (Nat.lt_succ_self _)
  · by_cases hkey : key' = key
    · subst hkey
      rw [kept_insert_self h, recorded_insert_self]
      exact (h.answers key').insert hle
    · rw [kept, zset_insert_of_ne hkey, recorded_insert_of_ne hkey]
      exact (h.answers key').later hle

theorem Faithful.record (h : w.Faithful now) (hle : now ≤ w.clock w.readings) :
    (w.record key limit).Faithful (w.clock w.readings) := by
  rw [MemoryWorld.record]
  split
  · exact h.insert hle
  · exact h.later hle

/-- What a count of the store sees. -/
theorem zcount_eq (s : MemoryStore) (key : String) (x width : Time) :
    s.zcount key (x - width) = (recent width x ((s.zset key).map Prod.snd)).length := by
  rw [recent, List.filter_map, List.length_map, MemoryStore.zcount]
  refine congrArg List.length (List.filter_congr fun m _ => ?_)
  rw [Function.comp_apply, decide_eq_decide]
  exact Nat.sub_le_iff_le_add

/-- A count of the store is one of the log. -/
theorem Faithful.zcount (h : w.Faithful now) {x : Time} (hle : now ≤ x) :
    w.store.zcount key (x - edgeWidth) = (recent edgeWidth x (w.recorded key)).length := by
  rw [zcount_eq]
  exact congrArg List.length (h.answers key x hle)

/-- A record under a ceiling with room keeps the log paced. -/
theorem paced_record (h : Paced edgeWidth limit.toNat (w.recorded key))
    (hroom : 0 < limit → ∃ x ≤ w.clock w.readings,
      ((recent edgeWidth x (w.recorded key)).length : ℤ) < limit) :
    Paced edgeWidth limit.toNat ((w.record key limit).recorded key) := by
  rw [record]
  split
  case isFalse => exact h
  case isTrue hlimit =>
      obtain ⟨x, hx, hroom⟩ := hroom hlimit
      rw [recorded_insert_self]
      exact .admitted x _ h hx (by omega)

end MemoryWorld

/-! ## A run -/

open MemoryWorld

theorem agentWindow_ne (agentId delegationId : String) :
    "agentpay:rl:agent:" ++ agentId ≠ "agentpay:rl:deleg:" ++ delegationId := by
  intro h
  have hagent : ("agentpay:rl:agent:" ++ agentId).toList[12]? = some 'a' :=
    getElem?_of_literal rfl _
  have hdelegation : ("agentpay:rl:deleg:" ++ delegationId).toList[12]? = some 'd' :=
    getElem?_of_literal rfl _
  rw [h, hdelegation] at hagent
  cases hagent

/-- The invariant between two calls. -/
structure Limited (R : Runtime) (w : MemoryWorld) (now : Time) : Prop where
  faithful : w.Faithful now
  agents : ∀ agentId, Paced edgeWidth R.settings.edgeRateLimitAgentPerMin.toNat
    (w.recorded ("agentpay:rl:agent:" ++ agentId))
  delegations : ∀ delegationId, Paced edgeWidth R.settings.edgeRateLimitDelegationPerMin.toNat
    (w.recorded ("agentpay:rl:deleg:" ++ delegationId))

section Step

variable {R : Runtime} {w : MemoryWorld} {c : EdgeCall} {now : Time}

/-- Looking leaves the invariant. -/
theorem Limited.look (h : Limited R w now) (clock : ℕ → Time) (n : ℕ) {now' : Time}
    (hle : now ≤ now') : Limited R { w with clock := clock, readings := n } now' where
  faithful := ⟨h.faithful.fresh, (h.faithful.later hle).answers⟩
  agents := h.agents
  delegations := h.delegations

/-- Room in the store is room in the log. -/
theorem Room.log (h : w.Faithful now) (hclock : ∀ i, now ≤ w.clock i) (hmono : Monotone w.clock)
    {key : String} {limit : ℤ} {n m : ℕ} (hroom : w.Room key limit n) (hn : n ≤ m)
    (hlimit : 0 < limit) : ∃ x ≤ w.clock m,
      ((recent edgeWidth x (w.recorded key)).length : ℤ) < limit := by
  obtain ⟨i, hi, hcount⟩ := hroom hlimit
  rw [h.zcount (hclock i)] at hcount
  exact ⟨w.clock i, hmono (hi.le.trans hn), hcount⟩

/-- The two records of an accepted call keep the invariant. -/
theorem Limited.accept (h : Limited R w now) (hclock : ∀ i, now ≤ w.clock i)
    (hmono : Monotone w.clock) {agentId delegationId : String}
    (hagent : w.Room ("agentpay:rl:agent:" ++ agentId) R.settings.edgeRateLimitAgentPerMin
      w.readings)
    (hdelegation : w.Room ("agentpay:rl:deleg:" ++ delegationId)
      R.settings.edgeRateLimitDelegationPerMin w.readings) :
    ∃ j, Limited R ((w.record ("agentpay:rl:agent:" ++ agentId)
        R.settings.edgeRateLimitAgentPerMin).record ("agentpay:rl:deleg:" ++ delegationId)
      R.settings.edgeRateLimitDelegationPerMin) (w.clock j) := by
  set u := w.record ("agentpay:rl:agent:" ++ agentId) R.settings.edgeRateLimitAgentPerMin with hu
  have hfaithful : u.Faithful (w.clock w.readings) := h.faithful.record (hclock _)
  have huclock : u.clock = w.clock := record_clock
  have hureadings : w.readings ≤ u.readings := readings_le_record
  refine ⟨u.readings, ?_, fun a => ?_, fun d => ?_⟩
  · rw [← huclock]
    refine hfaithful.record ?_
    rw [huclock]
    exact hmono hureadings
  · rw [recorded_record_of_ne (agentWindow_ne a delegationId)]
    by_cases ha : a = agentId
    · subst ha
      exact paced_record (h.agents a) (Room.log h.faithful hclock hmono hagent le_rfl)
    · rw [hu, recorded_record_of_ne fun heq => ha (String.append_right_inj _ |>.1 heq)]
      exact h.agents a
  · have hrecorded : ∀ d, u.recorded ("agentpay:rl:deleg:" ++ d) =
        w.recorded ("agentpay:rl:deleg:" ++ d) := fun d =>
      recorded_record_of_ne (agentWindow_ne agentId d).symm
    by_cases hd : d = delegationId
    · subst hd
      refine paced_record ?_ fun hlimit => ?_
      · rw [hrecorded]
        exact h.delegations d
      · rw [hrecorded, huclock]
        exact Room.log h.faithful hclock hmono hdelegation hureadings hlimit
    · rw [recorded_record_of_ne fun heq => hd (String.append_right_inj _ |>.1 heq), hrecorded]
      exact h.delegations d

/-- A call keeps the invariant. -/
theorem Limited.enforce (h : Limited R w now) (hclock : ∀ i, now ≤ c.clock i)
    (hmono : Monotone c.clock) : ∃ j, Limited R (w.enforce R c).2 (c.clock j) := by
  rcases enforce_cases R w c with ⟨scope, limit, n, heq⟩ | ⟨-, heq⟩ | ⟨n, hagent, hdelegation, heq⟩
  · rw [heq]
    exact ⟨0, h.look _ _ (hclock 0)⟩
  · rw [heq]
    exact ⟨0, h.look _ _ (hclock 0)⟩
  · rw [heq]
    exact (h.look c.clock n le_rfl).accept hclock hmono hagent hdelegation

/-- Any calls keep the invariant. -/
theorem Limited.after {calls : List EdgeCall} (h : Limited R w now)
    (hclock : ∀ c ∈ calls, ∀ i, now ≤ c.clock i) (hcalls : InOrder calls) :
    ∃ now', Limited R (w.after R calls) now' := by
  induction calls generalizing w now with
  | nil => exact ⟨now, h⟩
  | cons c calls ih =>
      obtain ⟨hmono, hpairs⟩ := hcalls
      obtain ⟨hc, hpairs⟩ := List.pairwise_cons.1 hpairs
      obtain ⟨j, h'⟩ := h.enforce (hclock c List.mem_cons_self) (hmono c List.mem_cons_self)
      exact ih h' (fun d hd i => hc d hd j i)
        ⟨fun d hd => hmono d (List.mem_cons_of_mem _ hd), hpairs⟩

theorem limited_fresh (R : Runtime) : Limited R {} 0 where
  faithful := ⟨fun _ _ hm => absurd hm List.not_mem_nil, fun _ _ _ => rfl⟩
  agents _ := .nil
  delegations _ := .nil

end Step

/-! ## Rejected calls -/

section Rejected

variable {R : Runtime} {w : MemoryWorld}

/-- The readings of the last call do not matter to the next one. -/
theorem outcomes_look (R : Runtime) (w : MemoryWorld) (clock : ℕ → Time) (n : ℕ)
    (calls : List EdgeCall) :
    { w with clock := clock, readings := n }.outcomes R calls = w.outcomes R calls := by
  cases calls with
  | nil => rfl
  | cons c calls => rfl

/-- A rejected call only looked, so the run goes on from the store it found. -/
theorem remaining_cons_rejected {c : EdgeCall} (h : rejected (w.enforce R c).1 = true)
    (calls : List EdgeCall) : (∃ n, (w.enforce R c).2 = { w with clock := c.clock, readings := n }) ∧
      remaining R w (c :: calls) = remaining R w calls := by
  have hlook : ∃ n, (w.enforce R c).2 = { w with clock := c.clock, readings := n } := by
    rcases enforce_cases R w c with ⟨scope, limit, n, heq⟩ | ⟨-, heq⟩ | ⟨n, -, -, heq⟩
    · exact ⟨n, congrArg Prod.snd heq⟩
    · rw [heq] at h
      cases h
    · rw [heq] at h
      cases h
  refine ⟨hlook, ?_⟩
  obtain ⟨n, hlook⟩ := hlook
  rw [remaining, outcomes, List.zip_cons_cons, List.filter_cons, if_neg (by rw [h]; decide), hlook,
    outcomes_look]
  rfl

theorem remaining_cons_accepted {c : EdgeCall} (h : rejected (w.enforce R c).1 = false)
    (calls : List EdgeCall) :
    remaining R w (c :: calls) = c :: remaining R (w.enforce R c).2 calls := by
  rw [remaining, outcomes, List.zip_cons_cons, List.filter_cons, if_pos (by rw [h]; rfl),
    List.map_cons]
  rfl

/-- Without the rejected calls the others end as before. -/
theorem outcomes_remaining (R : Runtime) (w : MemoryWorld) (calls : List EdgeCall) :
    w.outcomes R (remaining R w calls) = (w.outcomes R calls).filter fun r => !rejected r := by
  induction calls generalizing w with
  | nil => rfl
  | cons c calls ih =>
      rw [outcomes, List.filter_cons]
      cases hr : rejected (w.enforce R c).1 with
      | true =>
          obtain ⟨⟨n, hlook⟩, hremaining⟩ := remaining_cons_rejected hr calls
          rw [hremaining, hlook, outcomes_look R w c.clock n calls, Bool.not_true, if_neg Bool.false_ne_true]
          exact ih w
      | false =>
          rw [remaining_cons_accepted hr, outcomes, Bool.not_false, if_pos rfl]
          exact congrArg _ (ih _)

theorem length_record (w : MemoryWorld) {limit : ℤ} (hlimit : 0 < limit) (key : String) :
    ((w.record key limit).recorded key).length = (w.recorded key).length + 1 := by
  rw [record, if_pos hlimit, recorded_insert_self, List.length_append, List.length_singleton]

/-- While the limit is on and both ceilings apply, the log has an entry for every call that was not
rejected, under its agent and under its delegation. -/
theorem length_recorded (hon : R.settings.edgeRateLimitEnabled = true)
    (hagent : 0 < R.settings.edgeRateLimitAgentPerMin)
    (hdelegation : 0 < R.settings.edgeRateLimitDelegationPerMin) (w : MemoryWorld)
    (calls : List EdgeCall) (agentId delegationId : String) :
    ((w.after R calls).recorded ("agentpay:rl:agent:" ++ agentId)).length =
        (w.recorded ("agentpay:rl:agent:" ++ agentId)).length +
          (remaining R w calls).countP (fun c => decide (c.agentId = agentId)) ∧
      ((w.after R calls).recorded ("agentpay:rl:deleg:" ++ delegationId)).length =
        (w.recorded ("agentpay:rl:deleg:" ++ delegationId)).length +
          (remaining R w calls).countP (fun c => decide (c.delegationId = delegationId)) := by
  induction calls generalizing w with
  | nil => exact ⟨rfl, rfl⟩
  | cons c calls ih =>
      obtain ⟨ihagent, ihdelegation⟩ := ih (w.enforce R c).2
      rw [after, ihagent, ihdelegation]
      rcases enforce_cases R w c with ⟨scope, limit, n, heq⟩ | ⟨hoff, -⟩ | ⟨n, -, -, heq⟩
      · obtain ⟨⟨m, hlook⟩, hremaining⟩ :=
          remaining_cons_rejected (R := R) (w := w) (c := c) (by rw [heq]; rfl) calls
        rw [hremaining, hlook]
        cases calls <;> exact ⟨rfl, rfl⟩
      · rw [hon] at hoff
        cases hoff
      · rw [remaining_cons_accepted (by rw [heq]; rfl), List.countP_cons, List.countP_cons, heq]
        constructor
        · rw [recorded_record_of_ne (agentWindow_ne _ _)]
          by_cases ha : c.agentId = agentId
          · rw [ha, length_record _ hagent, if_pos (decide_eq_true rfl), Nat.add_assoc,
              Nat.add_comm 1]
            rfl
          · rw [recorded_record_of_ne fun h => ha (String.append_right_inj _ |>.1 h).symm,
              if_neg (by rw [decide_eq_true_eq]; exact ha)]
            rfl
        · by_cases hd : c.delegationId = delegationId
          · rw [hd, length_record _ hdelegation, recorded_record_of_ne (agentWindow_ne _ _).symm,
              if_pos (decide_eq_true rfl), Nat.add_assoc, Nat.add_comm 1]
            rfl
          · rw [recorded_record_of_ne fun h => hd (String.append_right_inj _ |>.1 h).symm,
              recorded_record_of_ne (agentWindow_ne _ _).symm,
              if_neg (by rw [decide_eq_true_eq]; exact hd)]
            rfl

end Rejected

/-- In every closed interval of sixty seconds each agent and each delegation has at most its limit of
recorded acceptances, and the rejected calls make no difference to the others. -/
theorem edge_rate_limited (R : Runtime) (calls : List EdgeCall) (hcalls : InOrder calls) :
    (0 < R.settings.edgeRateLimitAgentPerMin → ∀ agentId start,
      ((within edgeWidth start
        ((({} : MemoryWorld).after R calls).recorded ("agentpay:rl:agent:" ++ agentId))).length : ℤ)
          ≤ R.settings.edgeRateLimitAgentPerMin) ∧
    (0 < R.settings.edgeRateLimitDelegationPerMin → ∀ delegationId start,
      ((within edgeWidth start
        ((({} : MemoryWorld).after R calls).recorded
          ("agentpay:rl:deleg:" ++ delegationId))).length : ℤ)
            ≤ R.settings.edgeRateLimitDelegationPerMin) ∧
    ({} : MemoryWorld).outcomes R (remaining R {} calls) =
      (({} : MemoryWorld).outcomes R calls).filter fun r => !rejected r := by
  obtain ⟨now, h⟩ := (limited_fresh R).after (fun _ _ _ => Nat.zero_le _) hcalls
  refine ⟨fun hlimit agentId start => ?_, fun hlimit delegationId start => ?_,
    outcomes_remaining R {} calls⟩
  · have hle := (h.agents agentId).within_le start
    omega
  · have hle := (h.delegations delegationId).within_le start
    omega

/-- Two requests of an agent whose ceiling is one. -/
def eager : List EdgeCall := [⟨"a", "d", fun _ => 0⟩, ⟨"a", "d", fun _ => 1⟩]

theorem eager_limited :
    let R : Runtime := { Scenario.runtime with settings := { edgeRateLimitAgentPerMin := 1 } }
    (({} : MemoryWorld).outcomes R eager).map rejected = [false, true] ∧
      ({} : MemoryWorld).outcomes R (remaining R {} eager) =
        (({} : MemoryWorld).outcomes R eager).filter fun r => !rejected r :=
  ⟨by decide +kernel, (edge_rate_limited _ eager
    ⟨fun c hc => by
      rcases List.mem_cons.1 hc with rfl | hc
      · exact monotone_const
      · rw [List.mem_singleton.1 hc]
        exact monotone_const,
      List.pairwise_cons.2 ⟨fun d hd i j => by
        rw [List.mem_singleton.1 hd]
        exact Nat.zero_le _, List.pairwise_singleton _ _⟩⟩).2.2⟩

end AgentPay.Properties
