import AgentPay.Gateway.Keys
import AgentPay.Library.Joining
import AgentPay.Properties.Fingerprints

/-!
# The store keys of two users

The keys of a request join the user id with texts the caller chooses, by a separator that the user id
may hold as well. Requests of two users share a key exactly when they are confusable
(`shared_key_iff`): the user id and the idempotency key, or the user id and the agent id, of one
blur into those of the other across a colon, or user id and merchant id blur across a bar in two
orders of one cart, amount, currency and window. Without such requests, removing every request of
one user from a run changes no answer the other one gets under the keys of its requests
(`users_apart`).
-/

set_option autoImplicit false

namespace AgentPay.Properties

open AgentPay.Library AgentPay.Library.Machine AgentPay.Gateway

/-- A digest in hexadecimal that no two texts share. -/
structure HexDigest (digest : String → String) : Prop where
  injective : Function.Injective digest
  hex : ∀ s, ∀ c ∈ (digest s).toList, Json.isHex c = true

/-- The requests build one key out of two pairs of texts. -/
def Confusable (R : Runtime) (i j : PaymentIntent) (t t' : Time) : Prop :=
  Blurs ":" i.userId i.idempotencyKey j.userId j.idempotencyKey ∨
  Blurs ":" i.userId i.agentId j.userId j.agentId ∨
  (Blurs "|" i.userId i.merchantId j.userId j.merchantId ∧ SameSpelling i j ∧
    i.currency = j.currency ∧ t / seconds R.settings.fingerprintWindowSeconds =
      t' / seconds R.settings.fingerprintWindowSeconds)

/-! ## Keys of two users -/

/-- Behind one head, the join decides. -/
theorem headed_eq_iff (head a b c d : String) :
    head ++ a ++ ":" ++ b = head ++ c ++ ":" ++ d ↔ (a = c ∧ b = d) ∨ Blurs ":" a b c d := by
  have hcolon : ":".toList = [':'] := rfl
  rw [← join_eq_iff hcolon]
  constructor
  · intro h
    simp only [String.append_assoc] at h ⊢
    exact String.append_right_inj head |>.1 h
  · intro h
    simp only [String.append_assoc] at h ⊢
    rw [h]

/-- For two users, only the blurring is left. -/
theorem headed_eq_iff_blurs (head : String) {a b c d : String} (hne : a ≠ c) :
    head ++ a ++ ":" ++ b = head ++ c ++ ":" ++ d ↔ Blurs ":" a b c d := by
  rw [headed_eq_iff]
  exact or_iff_right fun h => hne h.1

theorem bar_not_mem_nat (n : ℕ) : '|' ∉ (toString n).toList := by
  intro h
  rw [show (toString n).toList = Nat.toDigits 10 n from Nat.toList_repr] at h
  exact absurd (Nat.isDigit_of_mem_toDigits (by norm_num) (by norm_num) h) (by decide)

theorem bar_not_mem_str (d : Decimal) : '|' ∉ d.str.toList := by
  intro h
  rcases Decimal.str_chars h with h | h
  · exact absurd h (by decide)
  · exact absurd h (by decide)

theorem bar_not_mem_currency (intent : PaymentIntent) : '|' ∉ intent.currency.toList := by
  intro h
  exact absurd (intent.currency_pattern.2 _ h) (by decide)

section Digests

variable {R : Runtime} (hR : HexDigest R.sha256)

include hR

theorem not_mem_digest {c : Char} (hc : Json.isHex c = false) (s : String) :
    c ∉ (R.sha256 s).toList := by
  intro h
  rw [hR.hex s c h] at hc
  cases hc

/-- Two fingerprints agree when the users and merchants join to one text and the rest agrees. -/
theorem fingerprint_eq_iff (i j : PaymentIntent) (t t' : Time) :
    PaymentIntent.fingerprint R i t = PaymentIntent.fingerprint R j t' ↔
      i.userId ++ "|" ++ i.merchantId = j.userId ++ "|" ++ j.merchantId ∧ SameSpelling i j ∧
        i.currency = j.currency ∧ t / seconds R.settings.fingerprintWindowSeconds =
          t' / seconds R.settings.fingerprintWindowSeconds := by
  have hbar : "|".toList = ['|'] := rfl
  constructor
  · intro h
    -- the parts are split off from the right, down to the two that may hold a bar
    obtain ⟨h, hbucket⟩ := join_last hbar (bar_not_mem_nat _) (bar_not_mem_nat _) (hR.injective h)
    obtain ⟨h, hcurrency⟩ := join_last hbar (bar_not_mem_currency i) (bar_not_mem_currency j) h
    obtain ⟨h, hamount⟩ := join_last hbar (bar_not_mem_str _) (bar_not_mem_str _) h
    obtain ⟨h, hcart⟩ := join_last hbar (not_mem_digest hR rfl _) (not_mem_digest hR rfl _) h
    exact ⟨h, ⟨Decimal.str_injective hamount, (cartHash_eq_iff hR.injective).1 hcart⟩, hcurrency,
      Nat.repr_injective hbucket⟩
  · rintro ⟨hjoin, hspelling, hcurrency, hbucket⟩
    simp only [PaymentIntent.fingerprint, transactionFingerprint, hjoin, hcurrency, hbucket,
      hspelling.amount, (cartHash_eq_iff hR.injective).2 hspelling.lines]

/-- **Requests of two users share a key exactly when they are confusable.** -/
theorem shared_key_iff {i j : PaymentIntent} (hne : i.userId ≠ j.userId) (t t' : Time) :
    (∃ key ∈ requestKeys R i t, key ∈ requestKeys R j t') ↔ Confusable R i j t t' := by
  have hbar : "|".toList = ['|'] := rfl
  have hidem : idemKey i.userId i.idempotencyKey = idemKey j.userId j.idempotencyKey ↔
      Blurs ":" i.userId i.idempotencyKey j.userId j.idempotencyKey :=
    headed_eq_iff_blurs _ hne
  have hvelocity : velocityKey i.userId i.agentId = velocityKey j.userId j.agentId ↔
      Blurs ":" i.userId i.agentId j.userId j.agentId := headed_eq_iff_blurs _ hne
  have hslot : PaymentIntent.fingerprint R i t = PaymentIntent.fingerprint R j t' ↔
      Blurs "|" i.userId i.merchantId j.userId j.merchantId ∧ SameSpelling i j ∧
        i.currency = j.currency ∧ t / seconds R.settings.fingerprintWindowSeconds =
          t' / seconds R.settings.fingerprintWindowSeconds := by
    rw [fingerprint_eq_iff hR, join_eq_iff hbar]
    exact and_congr_left' (or_iff_right fun h => hne h.1)
  constructor
  · rintro ⟨key, hi, hj⟩
    rcases shared_kind hi hj with h | h | h | h | h
    · exact .inl (hidem.1 h)
    · exact .inl ((headed_eq_iff_blurs "idem:" hne).1 h)
    · exact .inr (.inr (hslot.1 (String.append_right_inj "agentpay:fp:" |>.1 h)))
    · -- the digest holds no colon, so the users would be one
      have hcolon : ":".toList = [':'] := rfl
      exact absurd (join_last hcolon (not_mem_digest hR rfl _) (not_mem_digest hR rfl _) h).1
        fun hhead => hne (String.append_right_inj "fp:" |>.1 hhead)
    · exact .inr (.inl (hvelocity.1 h))
  · rintro (h | h | h)
    · refine ⟨idemKey i.userId i.idempotencyKey, List.mem_cons_self, ?_⟩
      rw [hidem.2 h]
      exact List.mem_cons_self
    · refine ⟨velocityKey i.userId i.agentId, by simp [requestKeys, CanonicalTransaction.storeKeys,
        buildCanonical, PaymentIntent.claimedIdentity], ?_⟩
      rw [hvelocity.2 h]
      simp [requestKeys, CanonicalTransaction.storeKeys, buildCanonical,
        PaymentIntent.claimedIdentity]
    · have hmem : ∀ (k : PaymentIntent) u, fingerprintKey (PaymentIntent.fingerprint R k u) ∈
          requestKeys R k u := fun k u => List.mem_cons_of_mem _ (List.mem_cons_of_mem _
            List.mem_cons_self)
      refine ⟨_, hmem i t, ?_⟩
      rw [hslot.2 h]
      exact hmem j t'

end Digests

/-! ## Runs without one user -/

/-- What changes the world of the gateway. -/
abbrev Deed := Machine.Deed Env Outcome Op Op.Val Exn

/-- The intent of a thread, when it is a payment request. -/
def intentOf (c : Config) (tid : ℕ) : Option PaymentIntent :=
  c.threads[tid]?.bind fun thread => thread.job.intent?

/-- The deeds of the payment requests of a user. -/
def ofUser (c : Config) (userId : String) : Deed → Bool
  | .act _ => false
  | .did ev => (intentOf c ev.tid).any fun intent => decide (intent.userId = userId)

/-- Without the requests of user `v`, every operation under a key of a request of user `u` would have
been answered as it was: the readings of the duplicate check, the attempts to take the two locks, and
the count of the last hour. -/
def Unaffected (R : Runtime) (w : World) (deeds : List Deed) (c : Config) (u v : String) : Prop :=
  ∀ before ev rest intent t key, deeds = before ++ .did ev :: rest →
    intentOf c ev.tid = some intent → intent.userId = u → ev.op.storeKey? = some key →
    key ∈ requestKeys R intent t →
      (((before.filter fun d => !ofUser c v d).foldl (machine R).after w).perform ev.op
        ev.choice).map Prod.snd = some ev.answer

/-- No request of user `u` is confusable with one of user `v`. -/
def NeverConfusable (R : Runtime) (c : Config) (u v : String) : Prop :=
  ∀ tid tid' i j, intentOf c tid = some i → intentOf c tid' = some j → i.userId = u →
    j.userId = v → ∀ t t', ¬ Confusable R i j t t'

/-- The keys of the requests of a user. -/
def UserKey (R : Runtime) (c : Config) (u : String) (key : String) : Prop :=
  ∃ tid i t, intentOf c tid = some i ∧ i.userId = u ∧ key ∈ requestKeys R i t

section Runs

variable {R : Runtime} (hR : HexDigest R.sha256) {w : World} {deeds : List Deed} {c : Config}
  {u v : String}

include hR

/-- The other user works on none of these keys. -/
theorem userKey_untouched (hne : u ≠ v) (hapart : NeverConfusable R c u v)
    (h : History (machine R) {} w deeds c) {ev : Event} (hev : .did ev ∈ deeds)
    (hv : ofUser c v (.did ev) = true) : OnKeys (fun key => ¬ UserKey R c u key) ev.op := by
  obtain ⟨thread, ht, hguard⟩ := h.guarded (footprint R) Job.intent? (fun _ _ _ => rfl)
    (job_touches R) hev
  obtain ⟨j, hj, huser⟩ := (Option.any_eq_true _ _).1 hv
  have hj' : thread.job.intent? = some j := by
    rwa [intentOf, ht, Option.bind_some] at hj
  rintro key hkey ⟨tid, i, t, hi, hu, hmem⟩
  rcases hguard j hj' key hkey with hcommon | ⟨t', hmem'⟩
  · exact not_commonKey hmem hcommon
  · have hne' : i.userId ≠ j.userId := by
      rw [hu, of_decide_eq_true huser]
      exact hne
    exact hapart tid ev.tid i j hi hj hu (of_decide_eq_true huser) t t'
      ((shared_key_iff hR hne' t t').1 ⟨key, hmem, hmem'⟩)

/-- The deeds of the other user leave the keys as they are. -/
theorem agrees_without (hne : u ≠ v) (hapart : NeverConfusable R c u v)
    (h : History (machine R) {} w deeds c) (before : List Deed) (hbefore : ∀ d ∈ before, d ∈ deeds)
    {w₁ w₂ : World} (hw : AgreesOn (UserKey R c u) w₁ w₂) :
    AgreesOn (UserKey R c u) (before.foldl (machine R).after w₁)
      ((before.filter fun d => !ofUser c v d).foldl (machine R).after w₂) := by
  induction before generalizing w₁ w₂ with
  | nil => exact hw
  | cons d before ih =>
      have htail : ∀ d' ∈ before, d' ∈ deeds := fun d' hd' => hbefore d' (List.mem_cons_of_mem _ hd')
      by_cases hd : ofUser c v d = true
      · rw [List.filter_cons_of_neg (by simp [hd]), List.foldl_cons]
        cases d with
        | act env => cases hd
        | did ev =>
            exact ih htail (hw.after_left R (userKey_untouched hR hne hapart h
              (hbefore _ List.mem_cons_self) hd))
      · rw [List.filter_cons_of_pos (by simp [hd]), List.foldl_cons, List.foldl_cons]
        exact ih htail (hw.after R d)

end Runs

/-- **Two users share a key exactly through confusable requests, and without such requests the
requests of one have no influence on what the other reads under the keys of its own.** -/
theorem users_apart (R : Runtime) (hR : HexDigest R.sha256) (u v : String) (hne : u ≠ v) :
    (∀ (i j : PaymentIntent) (t t' : Time), i.userId = u → j.userId = v →
      ((∃ key ∈ requestKeys R i t, key ∈ requestKeys R j t') ↔ Confusable R i j t t')) ∧
    ∀ (w : World) (deeds : List Deed) (c : Config), History (machine R) {} w deeds c →
      NeverConfusable R c u v → Unaffected R w deeds c u v := by
  constructor
  · rintro i j t t' rfl rfl
    exact shared_key_iff hR hne t t'
  · intro w deeds c h hapart before ev rest intent t key hdeeds hintent huser hkey hmem
    have hagree := agrees_without hR hne hapart h before
      (fun d hd => hdeeds ▸ List.mem_append_left _ hd) (AgreesOn.refl _ w)
    rw [← hagree.answer_eq hkey ⟨ev.tid, intent, t, hintent, huser, hmem⟩]
    exact h.answer hdeeds

/-! ## Two requests up to their first lock -/

/-- The digest is the text in hexadecimal. -/
def hexRuntime : Runtime := { Scenario.runtime with sha256 := Json.hexText }

theorem hexRuntime_digest : HexDigest hexRuntime.sha256 :=
  ⟨Json.hexText_injective, Json.isHex_hexText⟩

/-- Two requests, one after the other, up to the idempotency lock. -/
def upToLock (first second : PaymentIntent) : List (Label Job Env Outcome) :=
  [Scenario.request first true, Scenario.request second true] ++ steps 0 (oks 6) ++ steps 1 (oks 6)

/-- A world without registries. -/
def bareWorld : World := { clock := seconds 1000000 }

/-- The configuration after two requests. -/
def afterTwo (first second : PaymentIntent) : Option Config :=
  (machine hexRuntime).run {} { world := bareWorld } (upToLock first second)

/-- The deeds of two requests. -/
def deedsOfTwo (first second : PaymentIntent) : List Deed :=
  (machine hexRuntime).deedsOf {} { world := bareWorld } (upToLock first second)

theorem history_afterTwo {first second : PaymentIntent} {c : Config}
    (h : afterTwo first second = some c) :
    History (machine hexRuntime) {} bareWorld (deedsOfTwo first second) c :=
  (History.initial trivial).of_run ⟨fun _ _ => trivial, fun _ _ _ => trivial, fun _ _ _ => trivial⟩ h

/-- The threads of two requests. -/
theorem intentOf_afterTwo {first second : PaymentIntent} {c : Config}
    (h : afterTwo first second = some c) (tid : ℕ) :
    intentOf c tid = [first, second][tid]? := by
  have hjobs := jobs_of_run h
  have hintent : ∀ tid, intentOf c tid =
      ((c.threads.map Machine.Thread.job)[tid]?).bind Job.intent? := by
    intro tid
    rw [intentOf, List.getElem?_map, Option.bind_map]
    rfl
  rw [hintent, hjobs]
  match tid with
  | 0 => rfl
  | 1 => rfl
  | n + 2 => rfl

/-- A lock that was taken. -/
def granted : (op : Op) → Except Exn op.Val → Bool
  | .setNx .., .ok taken => taken
  | _, _ => false

/-- The second request is refused its lock in the run, and granted it without the user of the
first one. -/
def contends (first second : PaymentIntent) (key : String) : Bool :=
  (afterTwo first second).any fun c =>
    match (deedsOfTwo first second).drop 11 with
    | .did ev :: _ =>
        decide (ev.tid = 1) && decide (ev.op.storeKey? = some key) && !granted ev.op ev.answer &&
          (((((deedsOfTwo first second).take 11).filter fun d => !ofUser c first.userId d).foldl
            (machine hexRuntime).after bareWorld).perform ev.op ev.choice).any fun p =>
              granted ev.op p.2
    | _ => false

/-- User `u` with the key `v:key-0001` waits for the lock of user `u:v` with the key `key-0001`. -/
theorem colon_confuses : ¬ ∀ (R : Runtime) (u v : String), HexDigest R.sha256 → u ≠ v →
    ∀ (w : World) (deeds : List Deed) (c : Config), History (machine R) {} w deeds c →
      Unaffected R w deeds c u v := by
  intro h
  have hrun : contends (Scenario.order "u:v" "key-0001" "s" none)
      (Scenario.order "u" "v:key-0001" "s" none) "agentpay:lock:idem:u:v:key-0001" = true := by
    decide +kernel
  obtain ⟨c, hc, hrun⟩ := (Option.any_eq_true _ _).1 hrun
  have hfree := h hexRuntime "u" "u:v" hexRuntime_digest (by decide) _ _ c (history_afterTwo hc)
  split at hrun
  · rename_i ev rest hdrop
    simp only [Bool.and_eq_true, decide_eq_true_eq, Bool.not_eq_true'] at hrun
    obtain ⟨⟨⟨htid, hkey⟩, hrefused⟩, hgranted⟩ := hrun
    obtain ⟨p, hp, hgranted⟩ := (Option.any_eq_true _ _).1 hgranted
    have hsplit := (List.take_append_drop 11 (deedsOfTwo (Scenario.order "u:v" "key-0001" "s" none)
      (Scenario.order "u" "v:key-0001" "s" none))).symm
    rw [hdrop] at hsplit
    have hanswer := hfree _ ev rest (Scenario.order "u" "v:key-0001" "s" none) 0 _ hsplit
      (by rw [htid, intentOf_afterTwo hc]; rfl) rfl hkey
      (List.mem_cons_of_mem _ List.mem_cons_self)
    have hp' : (((((deedsOfTwo (Scenario.order "u:v" "key-0001" "s" none)
        (Scenario.order "u" "v:key-0001" "s" none)).take 11).filter fun d =>
          !ofUser c "u:v" d).foldl (machine hexRuntime).after bareWorld).perform ev.op
            ev.choice) = some p := hp
    rw [hp', Option.map_some, Option.some.injEq] at hanswer
    rw [hanswer, hrefused] at hgranted
    cases hgranted
  · cases hrun

/-- Two users whose ids have one length keep apart. -/
theorem users_apart_equal_length :
    (∀ (i j : PaymentIntent) (t t' : Time), i.userId = "u" → j.userId = "w" →
      ((∃ key ∈ requestKeys hexRuntime i t, key ∈ requestKeys hexRuntime j t') ↔
        Confusable hexRuntime i j t t')) ∧
    ∃ c, History (machine hexRuntime) {} bareWorld
        (deedsOfTwo (Scenario.order "w" "key-0001" "s" none)
          (Scenario.order "u" "key-0001" "s" none)) c ∧
      Unaffected hexRuntime bareWorld (deedsOfTwo (Scenario.order "w" "key-0001" "s" none)
        (Scenario.order "u" "key-0001" "s" none)) c "u" "w" := by
  have hne : "u" ≠ "w" := by decide
  refine ⟨(users_apart hexRuntime hexRuntime_digest "u" "w" hne).1, ?_⟩
  have hsome : (afterTwo (Scenario.order "w" "key-0001" "s" none)
      (Scenario.order "u" "key-0001" "s" none)).isSome = true := by decide +kernel
  obtain ⟨c, hc⟩ := Option.isSome_iff_exists.1 hsome
  refine ⟨c, history_afterTwo hc, ?_⟩
  refine (users_apart hexRuntime hexRuntime_digest "u" "w" hne).2 _ _ c (history_afterTwo hc) ?_
  intro tid tid' i j _ _ hi hj t t' hconfusable
  -- of two ids of one length none continues the other
  have hlength : i.userId.length = j.userId.length := by rw [hi, hj]; rfl
  rcases hconfusable with h | h | ⟨h, -⟩
  · exact h.length_ne (by decide) hlength
  · exact h.length_ne (by decide) hlength
  · exact h.length_ne (by decide) hlength

end AgentPay.Properties
