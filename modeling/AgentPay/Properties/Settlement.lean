import AgentPay.Properties.Credentials
import AgentPay.Properties.TokenUse
import AgentPay.Provider.Network

/-!
# The gateway and the provider agree on what was charged

Runs of the gateway and the provider together, across a network that delays, reorders and loses,
where anyone may present what the gateway signed. Every charge the provider records is that of an
allowed row of the gateway and no payment is charged twice (`charges_match_rows`). A row is
`CONFIRMED` only if the provider recorded its charge, under the reference of the row
(`confirmed_rows_are_charged`). Once a row is `EXPIRED` no charge is recorded for its payment any
more (`expired_rows_take_no_charge`).
-/

set_option autoImplicit false

namespace AgentPay.Properties

open AgentPay.Library AgentPay.Library.Machine AgentPay.Gateway AgentPay.Provider

/-! ## What the provider records -/

/-- The facts known when a charge is recorded. -/
structure Made (W : Wire) (c : Config) (r : Recording) : Prop where
  now : r.arrival.now = c.world.clock
  signed : ∃ t ∈ c.world.authorizations, W.tokenClaims t = r.claims
  unexpired : c.world.clock < seconds r.claims.exp
  binds : Binds r.claims r.arrival.body
  charge : r.charge = .declined ∨ r.charge = .confirmed ("ch_" ++ firstChars 16 r.arrival.uuid)
    r.arrival.body.amount r.arrival.body.currency r.arrival.body.merchantId r.arrival.now

/-- What the provider answers to the request it records a charge for. -/
def answerTo (r : Recording) : Reply :=
  match r.charge with
  | .declined => ⟨"declined", none, some "card declined"⟩
  | .confirmed providerReference .. => ⟨"confirmed", some providerReference, none⟩

section Provider

variable {W : Wire} {c : Config} {s : State} {a : Arrival}

/-- A request of the provider records nothing, or a charge, which it answers with. -/
theorem createCharge_records (ha : a.now = c.world.clock) (hun : W.unforged c a = true) :
    ((createCharge W.verifier s a).1 = s.count a ∧
      (s.behaviour = .timeout ∨ ∃ e, (createCharge W.verifier s a).2 = .error e)) ∨
    ∃ claims charge, (createCharge W.verifier s a).1 = (s.count a).record a claims charge ∧
      Made W c ⟨a, claims, charge⟩ ∧ s.behaviour ≠ .timeout ∧
      (createCharge W.verifier s a).2 = .ok (answerTo ⟨a, claims, charge⟩) := by
  rw [createCharge]
  cases hclaims : authorizeCharge W.verifier (s.count a) a with
  | error e => exact .inl ⟨rfl, .inr ⟨e, rfl⟩⟩
  | ok claims =>
      have hbehaviour : (s.count a).behaviour = s.behaviour := rfl
      have hverified : verifiedClaims W.verifier a = .ok claims := by
        rw [authorizeCharge] at hclaims
        obtain ⟨verified, hverified, h⟩ := bind_ok hclaims
        split at h
        · cases h
        · obtain ⟨_, _, h⟩ := bind_ok h
          cases h
          exact hverified
      obtain ⟨hpresents, -, hbinds⟩ := authorizeCharge_ok hclaims
      have hsigned : ∃ t ∈ c.world.authorizations, W.tokenClaims t = claims := by
        rw [Wire.unforged, hverified] at hun
        obtain ⟨t, ht, heq⟩ := List.any_eq_true.1 hun
        exact ⟨t, ht, of_decide_eq_true heq⟩
      have hunexpired : c.world.clock < seconds claims.exp := by
        obtain ⟨token, -, hverify⟩ := hpresents
        rw [← ha]
        exact (W.verifier.sound _ token _ hverify).2
      simp only
      cases hb : (s.count a).behaviour with
      | timeout => exact .inl ⟨rfl, .inl (hbehaviour.symm.trans hb)⟩
      | error => exact .inl ⟨rfl, .inr ⟨_, rfl⟩⟩
      | decline =>
          refine .inr ⟨claims, _, rfl, ⟨ha, hsigned, hunexpired, hbinds, .inl rfl⟩, ?_, rfl⟩
          rw [← hbehaviour, hb]
          exact Behaviour.noConfusion
      | success =>
          refine .inr ⟨claims, _, rfl, ⟨ha, hsigned, hunexpired, hbinds, .inr rfl⟩, ?_, rfl⟩
          rw [← hbehaviour, hb]
          exact Behaviour.noConfusion

/-- What a step of the network does to the provider: it brings a request, or changes the behaviour.
-/
theorem act_provider {n n' : Network} {step : NetworkStep} (h : W.act c n step = some n') :
    (∃ a, a.now = c.world.clock ∧ W.unforged c a = true ∧
      n'.provider = (createCharge W.verifier n.provider a).1) ∨
    n'.provider = n.provider ∨
    ∃ behaviour delay, n'.provider = setBehaviour n.provider behaviour delay := by
  cases step with
  | deliverCharge i uuid =>
      obtain ⟨sent, -, h⟩ := Option.bind_eq_some_iff.1 h
      simp only at h
      split at h
      case isTrue hun =>
          cases h
          exact .inl ⟨_, rfl, hun, rfl⟩
      case isFalse => cases h
  | present authorization body uuid =>
      simp only [Wire.act, Wire.present] at h
      split at h
      case isTrue hun =>
          cases h
          exact .inl ⟨_, rfl, hun, rfl⟩
      case isFalse => cases h
  | loseCharge i =>
      simp only [Wire.act, loseCharge] at h
      split at h <;> cases h
      exact .inr (.inl rfl)
  | deliverQuery i =>
      obtain ⟨query, -, rfl⟩ := Option.map_eq_some_iff.1 h
      exact .inr (.inl rfl)
  | setBehaviour behaviour delay =>
      cases h
      exact .inr (.inr ⟨behaviour, delay, rfl⟩)

/-- A recording was there before the step, or was made in it. -/
theorem made_of_act {n n' : Network} {step : NetworkStep} (h : W.act c n step = some n')
    {r : Recording} (hr : r ∈ n'.provider.recordings) :
    r ∈ n.provider.recordings ∨ Made W c r := by
  rcases act_provider h with ⟨a, ha, hun, heq⟩ | heq | ⟨behaviour, delay, heq⟩
  · rw [heq] at hr
    rcases createCharge_records (s := n.provider) ha hun with ⟨hnone, -⟩ |
      ⟨claims, charge, hrecord, hmade, -, -⟩
    · rw [hnone] at hr
      exact .inl hr
    · rw [hrecord] at hr
      refine (List.mem_append.1 hr).imp id fun hr => ?_
      rw [List.mem_singleton.1 hr]
      exact hmade
  · rw [heq] at hr
    exact .inl hr
  · rw [heq] at hr
    exact .inl hr

/-- No recording is lost. -/
theorem recordings_of_act {n n' : Network} {step : NetworkStep} (h : W.act c n step = some n')
    {r : Recording} (hr : r ∈ n.provider.recordings) : r ∈ n'.provider.recordings := by
  rcases act_provider h with ⟨a, ha, hun, heq⟩ | heq | ⟨behaviour, delay, heq⟩
  · rw [heq]
    rcases createCharge_records (s := n.provider) ha hun with ⟨hnone, -⟩ |
      ⟨claims, charge, hrecord, -⟩
    · rw [hnone]
      exact hr
    · rw [hrecord]
      exact List.mem_append_left _ hr
  · rw [heq]
    exact hr
  · rw [heq]
    exact hr

theorem accounted_of_act {n n' : Network} {step : NetworkStep} (h : W.act c n step = some n')
    (hs : Accounted W.verifier n.provider) : Accounted W.verifier n'.provider := by
  rcases act_provider h with ⟨a, -, -, heq⟩ | heq | ⟨behaviour, delay, heq⟩
  · rw [heq]
    exact hs.step (.charge a)
  · rw [heq]
    exact hs
  · rw [heq]
    exact hs.step (.behaviour behaviour delay)

theorem notices_provider (n : Network) (ev : Event) : (n.notices ev).provider = n.provider := by
  unfold Network.notices
  split <;> rfl

end Provider

/-! ## Charges and rows -/

section Runs

variable {R : Runtime} {D : Discipline} {W : Wire} {c c' : Config} {n n' : Network}

/-- The recordings of the provider and the credentials of the gateway. -/
structure Backed (W : Wire) (c : Config) (n : Network) : Prop where
  accounted : Accounted W.verifier n.provider
  signed : ∀ r ∈ n.provider.recordings, ∃ t ∈ c.world.authorizations, W.tokenClaims t = r.claims
  binds : ∀ r ∈ n.provider.recordings, Binds r.claims r.arrival.body
  charge : ∀ r ∈ n.provider.recordings, r.charge = .declined ∨
    r.charge = .confirmed ("ch_" ++ firstChars 16 r.arrival.uuid) r.arrival.body.amount
      r.arrival.body.currency r.arrival.body.merchantId r.arrival.now

/-- The machine and the provider together keep what only the provider's steps and the signatures of
the gateway bear on. -/
theorem backed (h : Joined (machine R) D W.network (c, n)) : Backed W c n := by
  refine Joined.invariant (I := Backed W) ?_ ?_ h
  · rintro w _ - ⟨behaviour, delay, rfl⟩
    have hnone : ∀ {P : Recording → Prop}, ∀ r ∈ ([] : List Recording), P r :=
      fun r hr => absurd hr List.not_mem_nil
    exact ⟨⟨hnone, rfl, List.nodup_nil, fun e he => absurd he List.not_mem_nil⟩, hnone, hnone,
      hnone⟩
  · intro x y hx hmove hb
    -- what is signed stays signed; only a step of the provider records
    have hkept : ∀ {t}, t ∈ x.1.world.authorizations → t ∈ y.1.world.authorizations := by
      intro t ht
      rcases hmove.fst with hmoves | heq
      · exact Leads.persists (authorizations_register.persists (R := R)) (.single hmoves) ht
      · rw [heq]
        exact ht
    have hsigned : ∀ r ∈ x.2.provider.recordings, ∃ t ∈ y.1.world.authorizations,
        W.tokenClaims t = r.claims := fun r hr =>
      (hb.signed r hr).imp fun t ht => ⟨hkept ht.1, ht.2⟩
    cases hmove with
    | spawn job hd => exact ⟨hb.accounted, hsigned, hb.binds, hb.charge⟩
    | act env hd => exact ⟨hb.accounted, hsigned, hb.binds, hb.charge⟩
    | @run c p tid job op next choice w answer ht hp hd ho =>
        have hsame : (W.network.notices p ⟨tid, op, choice, answer⟩).provider = p.provider :=
          notices_provider p _
        refine ⟨?_, ?_, ?_, ?_⟩ <;> rw [hsame]
        · exact hb.accounted
        · exact hsigned
        · exact hb.binds
        · exact hb.charge
    | @partner c p p' a _ hact =>
        refine ⟨accounted_of_act hact hb.accounted, fun r hr => ?_, fun r hr => ?_, fun r hr => ?_⟩
        · exact (made_of_act hact hr).elim (hb.signed r) Made.signed
        · exact (made_of_act hact hr).elim (hb.binds r) Made.binds
        · exact (made_of_act hact hr).elim (hb.charge r) Made.charge

theorem paymentAuthorizationText_injective {a b : ℕ}
    (h : paymentAuthorizationText a = paymentAuthorizationText b) : a = b :=
  Nat.repr_injective ((String.append_right_inj "pa_").1 h)

/-- The recording is a charge of the row. -/
structure ChargeOf (row : Transaction) (r : Recording) : Prop where
  id : r.arrival.body.paymentAuthorizationId = paymentAuthorizationText row.paymentAuthorizationId
  allowed : row.decision = .allow
  merchantId : r.arrival.body.merchantId = row.merchantId
  currency : r.arrival.body.currency = row.currency
  cartHash : r.arrival.body.cartHash = row.cartHash
  amount : ∃ amount : Decimal, row.amount = hundredths amount ∧ ∃ x y,
    DecimalValue.read amount.str = some x ∧
      DecimalValue.read r.arrival.body.amount = some y ∧ DecimalValue.same x y = true

/-- What is recorded under a credential is a charge of its row. -/
theorem chargeOf_of_credential {row : Transaction} {t : AuthorizationClaims} {r : Recording}
    (hrow : CredentialOf row t) (hclaims : W.tokenClaims t = r.claims)
    (hbinds : Binds r.claims r.arrival.body) : ChargeOf row r := by
  rw [← hclaims] at hbinds
  obtain ⟨amount, hamount, hundred⟩ := hrow.amount
  obtain ⟨x, y, hx, hy, hsame⟩ := hbinds.amount
  refine ⟨?_, hrow.allowed, ?_, ?_, ?_, amount, hundred, x, y, ?_, hy, hsame⟩
  · rw [← hbinds.payment, hrow.id]
    rfl
  · rw [← hbinds.merchant, hrow.merchantId]
    rfl
  · rw [← hbinds.currency, hrow.currency]
    rfl
  · rw [← hbinds.cart, hrow.cartHash]
    rfl
  · rw [← hamount]
    exact hx

/-- Recordings for one payment stand under one credential. -/
theorem same_recording (hb : Backed W c n)
    (hone : (c.world.authorizations.map AuthorizationClaims.paymentAuthorizationId).Nodup)
    {r r' : Recording} (hr : r ∈ n.provider.recordings) (hr' : r' ∈ n.provider.recordings)
    (hid : r.arrival.body.paymentAuthorizationId = r'.arrival.body.paymentAuthorizationId) :
    r = r' := by
  obtain ⟨t, ht, hclaims⟩ := hb.signed r hr
  obtain ⟨t', ht', hclaims'⟩ := hb.signed r' hr'
  have hpayment : t.paymentAuthorizationId = t'.paymentAuthorizationId := by
    refine paymentAuthorizationText_injective ?_
    have hleft := (hb.binds r hr).payment
    have hright := (hb.binds r' hr').payment
    rw [← hclaims] at hleft
    rw [← hclaims'] at hright
    exact hleft.trans (hid.trans hright.symm)
  obtain rfl : t = t' := List.inj_on_of_nodup_map hone ht ht' hpayment
  exact List.inj_on_of_nodup_map hb.accounted.once hr hr' (by rw [← hclaims, ← hclaims'])

/-- A recorded charge is that of a row. -/
theorem row_of_recorded (hinit : ∀ w, D.initial w → w.authorizations = [])
    (h : Joined (machine R) D W.network (c, n)) {r : Recording}
    (hr : r ∈ n.provider.recordings) : ∃ row ∈ c.world.transactions, ChargeOf row r := by
  have hb := backed h
  obtain ⟨t, ht, hclaims⟩ := hb.signed r hr
  obtain ⟨row, hrow, hof⟩ := row_of_credential hinit h.reachable ht
  exact ⟨row, hrow, chargeOf_of_credential hof hclaims (hb.binds r hr)⟩

/-- **Every charge is that of an allowed row, no payment is charged twice, and the provider's table
is made of these charges.** -/
theorem charges_match_rows (hinit : ∀ w, D.initial w → w.authorizations = [])
    (h : Joined (machine R) D W.network (c, n)) :
    (∀ r ∈ n.provider.recordings, ∃ row ∈ c.world.transactions, ChargeOf row r) ∧
    (n.provider.recordings.map fun r => r.arrival.body.paymentAuthorizationId).Nodup ∧
    ∀ e ∈ n.provider.charges, ∃ r ∈ n.provider.recordings,
      r.arrival.body.paymentAuthorizationId = e.1 ∧ r.charge = e.2 := by
  have hb := backed h
  have hone := one_credential hinit h.reachable
  have hnodup : n.provider.recordings.Nodup := List.Nodup.of_map _ hb.accounted.once
  exact ⟨fun r hr => row_of_recorded hinit h hr,
    hnodup.map_on fun r hr r' hr' hid => same_recording hb hone hr hr' hid, hb.accounted.charges⟩

end Runs

/-! ## Responses of the provider -/

section Responses

variable {W : Wire} {c : Config} {n n' : Network}

/-- The provider recorded a confirmed charge for the payment, under the reference. -/
def ConfirmedAt (n : Network) (id : ℕ) (reference : Json) : Prop :=
  ∃ r ∈ n.provider.recordings, r.arrival.body.paymentAuthorizationId = paymentAuthorizationText id ∧
    ∃ text amount currency merchantId instant,
      r.charge = .confirmed text amount currency merchantId instant ∧ reference = .str text

/-- A response that says a charge was confirmed says what the provider recorded. -/
def Reported (n : Network) (o : Dispatch) : Prop :=
  ∀ reference, o.reply.Confirms (some reference) → ConfirmedAt n o.paymentAuthorizationId reference

/-- A response with an object for a body, and what it says. -/
theorem confirms_respond {statusCode : ℕ} {fields : List (String × Json)} {reference : Json}
    (h : (W.respond statusCode (.obj fields)).Confirms (some reference)) :
    Json.isText "confirmed" (fieldOf "status" fields) = true ∧
      reference = fieldOf "provider_reference" fields := by
  obtain ⟨-, fields', hfields, hstatus, hreference⟩ := h
  cases hfields
  exact ⟨hstatus, Option.some.inj hreference⟩

/-- No failure confirms a charge. -/
theorem failure_confirms_nothing {e : Failure} {reference : Json} :
    ¬ (W.failure e).Confirms (some reference) := by
  intro h
  cases e with
  | http statusCode detail => exact Bool.false_ne_true (confirms_respond h).1
  | invalidOperation =>
      obtain ⟨-, fields, hfields, -⟩ := h
      cases hfields

/-- An answer to a charge confirms what was recorded with it. -/
theorem answer_confirms {r : Recording} {reference : Json}
    (h : (W.chargeReply (.ok (answerTo r))).Confirms (some reference)) :
    ∃ text amount currency merchantId instant,
      r.charge = .confirmed text amount currency merchantId instant ∧ reference = .str text := by
  cases hcharge : r.charge with
  | declined =>
      rw [answerTo, hcharge] at h
      exact absurd (confirms_respond h).1 (by decide)
  | confirmed text amount currency merchantId instant =>
      rw [answerTo, hcharge] at h
      exact ⟨text, amount, currency, merchantId, instant, rfl, (confirms_respond h).2⟩

/-- An answer to a query confirms what is recorded. -/
theorem getCharge_confirms (hs : Accounted W.verifier n.provider) {id : ℕ} {reference : Json}
    (h : (W.getCharge n.provider (paymentAuthorizationText id)).Confirms (some reference)) :
    ConfirmedAt n id reference := by
  rw [Wire.getCharge] at h
  split at h
  case h_1 charge hlookup =>
      obtain ⟨before, after, hcharges, -⟩ := List.lookup_eq_some_iff.1 hlookup
      obtain ⟨r, hr, hid, rfl⟩ := hs.charges (paymentAuthorizationText id, charge)
        (hcharges ▸ List.mem_append_right _ List.mem_cons_self)
      refine ⟨r, hr, hid, ?_⟩
      cases hcharge : r.charge with
      | declined =>
          rw [hcharge] at h
          exact absurd (confirms_respond h).1 (by decide)
      | confirmed text amount currency merchantId instant =>
          rw [hcharge] at h
          exact ⟨text, amount, currency, merchantId, instant, rfl, (confirms_respond h).2⟩
  case h_2 => exact absurd h failure_confirms_nothing

theorem Reported.mono {o : Dispatch} (h : Reported n o)
    (hkept : ∀ r ∈ n.provider.recordings, r ∈ n'.provider.recordings) : Reported n' o := by
  intro reference hconfirms
  obtain ⟨r, hr, hrest⟩ := h reference hconfirms
  exact ⟨r, hkept r hr, hrest⟩

/-- A response that sets out in a step says what the provider recorded. -/
theorem reported_of_act {step : NetworkStep} (hs : Accounted W.verifier n.provider)
    (h : W.act c n step = some n') {o : Dispatch} (ho : o ∈ n'.chargeReplies ++ n'.queryReplies) :
    o ∈ n.chargeReplies ++ n.queryReplies ∨ Reported n' o := by
  cases step with
  | deliverCharge i uuid =>
      obtain ⟨sent, -, h⟩ := Option.bind_eq_some_iff.1 h
      simp only at h
      split at h
      case isFalse => cases h
      case isTrue hun =>
          cases h
          by_cases htimeout : n.provider.behaviour = .timeout
          · simp only [if_pos htimeout] at ho
            exact .inl ho
          · simp only [if_neg htimeout, List.cons_append] at ho
            refine (List.mem_cons.1 ho).symm.imp id ?_
            rintro rfl reference hconfirms
            rcases createCharge_records (s := n.provider) rfl hun with ⟨-, hbehaviour | ⟨e, he⟩⟩ |
              ⟨claims, charge, hrecord, hmade, -, hanswer⟩
            · exact absurd hbehaviour htimeout
            · rw [he] at hconfirms
              exact absurd hconfirms failure_confirms_nothing
            · rw [hanswer] at hconfirms
              refine ⟨_, ?_, rfl, answer_confirms hconfirms⟩
              change _ ∈ (createCharge W.verifier n.provider _).1.recordings
              rw [hrecord]
              exact List.mem_append_right _ (List.mem_singleton_self _)
  | present authorization body uuid =>
      simp only [Wire.act, Wire.present] at h
      split at h
      case isTrue hun =>
          cases h
          exact .inl ho
      case isFalse => cases h
  | loseCharge i =>
      simp only [Wire.act, loseCharge] at h
      split at h <;> cases h
      exact .inl ho
  | deliverQuery i =>
      obtain ⟨⟨tid, id⟩, -, rfl⟩ := Option.map_eq_some_iff.1 h
      rcases List.mem_append.1 ho with ho | ho
      · exact .inl (List.mem_append_left _ ho)
      · refine (List.mem_cons.1 ho).symm.imp (List.mem_append_right _) ?_
        rintro rfl reference hconfirms
        exact getCharge_confirms hs hconfirms
  | setBehaviour behaviour delay =>
      cases h
      exact .inl ho

/-- No response on its way is lost. -/
theorem replies_of_act {step : NetworkStep} (h : W.act c n step = some n') :
    (∀ o ∈ n.chargeReplies, o ∈ n'.chargeReplies) ∧
      ∀ o ∈ n.queryReplies, o ∈ n'.queryReplies := by
  cases step with
  | deliverCharge i uuid =>
      obtain ⟨sent, -, h⟩ := Option.bind_eq_some_iff.1 h
      simp only at h
      split at h
      case isFalse => cases h
      case isTrue hun =>
          cases h
          refine ⟨fun o ho => ?_, fun _ ho => ho⟩
          simp only
          split
          · exact ho
          · exact List.mem_cons_of_mem _ ho
  | present authorization body uuid =>
      simp only [Wire.act, Wire.present] at h
      split at h
      case isTrue hun =>
          cases h
          exact ⟨fun _ ho => ho, fun _ ho => ho⟩
      case isFalse => cases h
  | loseCharge i =>
      simp only [Wire.act, loseCharge] at h
      split at h <;> cases h
      exact ⟨fun _ ho => ho, fun _ ho => ho⟩
  | deliverQuery i =>
      obtain ⟨query, -, rfl⟩ := Option.map_eq_some_iff.1 h
      exact ⟨fun _ ho => ho, fun _ ho => List.mem_cons_of_mem _ ho⟩
  | setBehaviour behaviour delay =>
      cases h
      exact ⟨fun _ ho => ho, fun _ ho => ho⟩

theorem notices_replies (n : Network) (ev : Event) :
    (n.notices ev).chargeReplies = n.chargeReplies ∧
      (n.notices ev).queryReplies = n.queryReplies := by
  unfold Network.notices
  split <;> exact ⟨rfl, rfl⟩

end Responses

/-! ## Confirmed rows -/

section Confirmed

variable {R : Runtime} {D : Discipline} {W : Wire} {c : Config} {n : Network}

/-- What the gateway received of the provider was on its way, and what is on its way is reported. -/
structure Heard (c : Config) (n : Network) : Prop where
  reported : ∀ o ∈ n.chargeReplies ++ n.queryReplies, Reported n o
  charge : ∀ tid id reply, ⟨.awaitCharge id, .ok reply⟩ ∈ seenBy tid c.log →
    ⟨tid, id, reply⟩ ∈ n.chargeReplies
  query : ∀ tid id reply, ⟨.awaitQuery id, .ok reply⟩ ∈ seenBy tid c.log →
    ⟨tid, id, reply⟩ ∈ n.queryReplies

/-- What a thread has seen after an operation: what it had seen, or the answer. -/
theorem mem_seenBy_cons {tid : ℕ} {ev : Event} {log : List Event}
    {e : (op : Op) × Except Exn op.Val} (h : e ∈ seenBy tid (ev :: log)) :
    e ∈ seenBy tid log ∨ ev.tid = tid ∧ e = ⟨ev.op, ev.answer⟩ := by
  by_cases htid : ev.tid = tid
  · subst htid
    rw [seenBy_cons_self] at h
    exact (List.mem_cons.1 h).symm.imp id fun h => ⟨rfl, h⟩
  · rw [seenBy_cons_of_ne htid] at h
    exact .inl h

theorem heard (h : Joined (machine R) D W.network (c, n)) : Heard c n := by
  refine Joined.invariant (I := Heard) ?_ ?_ h
  · rintro w _ - ⟨behaviour, delay, rfl⟩
    exact ⟨fun o ho => absurd ho List.not_mem_nil, fun _ _ _ h => absurd h List.not_mem_nil,
      fun _ _ _ h => absurd h List.not_mem_nil⟩
  · intro x y hx hmove hh
    cases hmove with
    | spawn job hd => exact ⟨hh.reported, hh.charge, hh.query⟩
    | act env hd => exact ⟨hh.reported, hh.charge, hh.query⟩
    | @run c p tid job op next choice w answer ht hp hd ho =>
        have hreplies := notices_replies p ⟨tid, op, choice, answer⟩
        have hprovider := notices_provider p ⟨tid, op, choice, answer⟩
        refine ⟨fun o ho => ?_, fun tid' id reply hseen => ?_, fun tid' id reply hseen => ?_⟩
        · change o ∈ (p.notices _).chargeReplies ++ (p.notices _).queryReplies at ho
          rw [hreplies.1, hreplies.2] at ho
          refine (hh.reported o ho).mono fun r hr => ?_
          change r ∈ (p.notices _).provider.recordings
          rwa [hprovider]
        · change _ ∈ (p.notices _).chargeReplies
          rw [hreplies.1]
          rcases mem_seenBy_cons hseen with hseen | ⟨rfl, heq⟩
          · exact hh.charge _ _ _ hseen
          · cases heq
            exact ho
        · change _ ∈ (p.notices _).queryReplies
          rw [hreplies.2]
          rcases mem_seenBy_cons hseen with hseen | ⟨rfl, heq⟩
          · exact hh.query _ _ _ hseen
          · cases heq
            exact ho
    | @partner c p p' a _ hact =>
        obtain ⟨hcharges, hqueries⟩ := replies_of_act hact
        refine ⟨fun o ho => ?_, fun _ _ _ hseen => hcharges _ (hh.charge _ _ _ hseen),
          fun _ _ _ hseen => hqueries _ (hh.query _ _ _ hseen)⟩
        -- a response that sets out now reports a charge that is recorded by then
        rcases reported_of_act (backed hx).accounted hact ho with ho | ho
        · exact (hh.reported o ho).mono fun r hr => recordings_of_act hact hr
        · exact ho

/-- The row of a recorded charge is the row with its payment. -/
theorem chargeOf_of_id (hinit : ∀ w, D.initial w → w.transactions = [] ∧ w.authorizations = [])
    (h : Joined (machine R) D W.network (c, n)) {r : Recording} (hr : r ∈ n.provider.recordings)
    {row : Transaction} (hrow : row ∈ c.world.transactions)
    (hid : r.arrival.body.paymentAuthorizationId =
      paymentAuthorizationText row.paymentAuthorizationId) : ChargeOf row r := by
  obtain ⟨row', hrow', hof⟩ := row_of_recorded (fun w hw => (hinit w hw).2) h hr
  have hk := primaryKey_of_reachable (fun w hw => (hinit w hw).1) h.reachable
  have hsame : row.paymentAuthorizationId = row'.paymentAuthorizationId :=
    paymentAuthorizationText_injective (hid.symm.trans hof.id)
  have hfound := hk.row? hrow
  rw [hsame, hk.row? hrow'] at hfound
  cases hfound
  exact hof

end Confirmed

/-! ## Expired rows -/

section Expired

variable {R : Runtime} {D : Discipline} {W : Wire} {c c' : Config} {n n' : Network}

/-- The expiry of a row is that of a credential of its payment. -/
theorem expiry_of_credential (hinit : ∀ w, D.initial w → w.transactions = [])
    (hc : Reachable (machine R) D c) {row : Transaction} (hrow : row ∈ c.world.transactions)
    {t : Time} (ht : row.tokenExpiresAt = some t) : ∃ claims ∈ c.world.authorizations,
      claims.paymentAuthorizationId = row.paymentAuthorizationId ∧ t = seconds claims.exp := by
  have hcause : ∃ ev ∈ c.log, (∃ jti, ev.op = .commitToken row.paymentAuthorizationId jti t) ∨
      ∃ new, ev.op = .insertTransaction new ∧ new.tokenExpiresAt = some t := by
    refine hc.cause (P := fun w => ∃ r ∈ w.transactions,
      r.paymentAuthorizationId = row.paymentAuthorizationId ∧ r.tokenExpiresAt = some t) ?_ ?_ ?_
      ⟨row, hrow, rfl, ht⟩
    · rintro w hw ⟨r, hr, -⟩
      rw [hinit w hw] at hr
      exact List.not_mem_nil hr
    · rintro w env ⟨r, hr, hrest⟩
      refine ⟨r, ?_, hrest⟩
      change r ∈ (w.environment env).transactions at hr
      rwa [World.environment_transactions] at hr
    · rintro w tid op choice w' answer hp ⟨r, hr, hid, hexpires⟩
      have hthere : r ∈ w.transactions → ∃ r ∈ w.transactions,
          r.paymentAuthorizationId = row.paymentAuthorizationId ∧ r.tokenExpiresAt = some t :=
        fun hr => ⟨r, hr, hid, hexpires⟩
      rcases World.perform_world hp with rfl | rfl
      case inr => exact .inl (hthere hr)
      cases op
      case insertTransaction new =>
          simp only [World.apply] at hr
          split at hr
          · exact .inl (hthere hr)
          · rcases List.mem_cons.1 hr with rfl | hr
            · exact .inr (.inr ⟨r, rfl, hexpires⟩)
            · exact .inl (hthere hr)
      case commitToken id jti expiresAt =>
          obtain ⟨r₀, hr₀, rfl | ⟨rfl, rfl⟩⟩ := mem_updateRow hr
          · exact .inl (hthere hr₀)
          · cases hexpires
            exact .inr (.inl ⟨jti, by rw [← hid]⟩)
      case commitUses id uses =>
          obtain ⟨r₀, hr₀, rfl | ⟨-, rfl⟩⟩ := mem_updateRow hr
          · exact .inl (hthere hr₀)
          · exact .inl ⟨r₀, hr₀, hid, hexpires⟩
      case commitState id target reference detail =>
          simp only [World.apply] at hr
          split at hr
          · obtain ⟨r₀, hr₀, rfl | ⟨-, rfl⟩⟩ := mem_updateRow hr
            · exact .inl (hthere hr₀)
            · exact .inl ⟨r₀, hr₀, hid, hexpires⟩
          · exact .inl (hthere hr)
      case setNx key token ex =>
          simp only [World.apply] at hr
          split at hr <;> exact .inl (hthere hr)
      case deleteIfValue key token =>
          simp only [World.apply] at hr
          split at hr <;> exact .inl (hthere hr)
      all_goals exact .inl (hthere hr)
  obtain ⟨⟨tid, op, choice, answer⟩, hev, ⟨jti, hop⟩ | ⟨new, hop, hexpires⟩⟩ := hcause
  · subst hop
    obtain ⟨c₀, h₀⟩ := instant_of_seen hc (mem_seenBy.2 ⟨_, hev, rfl, rfl⟩)
    obtain ⟨claims, hsigned, hid, -, rfl⟩ := h₀.grounded
    exact ⟨claims, authorizations_register.entered hc (h₀.seen.mem hsigned), hid, rfl⟩
  · -- a row is inserted without an expiry
    subst hop
    obtain ⟨c₀, h₀⟩ := instant_of_seen hc (mem_seenBy.2 ⟨_, hev, rfl, rfl⟩)
    obtain ⟨s, hs, -, txn, verdict, risk, -, -, rfl⟩ := h₀.custody
    cases hexpires

/-- The credential of an expired row has run out. -/
theorem expired_credential (hinit : ∀ w, D.initial w → w.transactions = [])
    (hc : Reachable (machine R) D c) {row : Transaction} (hrow : row ∈ c.world.transactions)
    (hstate : row.state = .expired) : ∃ claims ∈ c.world.authorizations,
      claims.paymentAuthorizationId = row.paymentAuthorizationId ∧
        seconds claims.exp ≤ c.world.clock := by
  have hreason := reason_of_row hinit hc hrow
  simp only [Reason, hstate] at hreason
  obtain ⟨-, c₀, hc₀, hleads, row₀, hrow₀, hid, -, t, ht, hlt⟩ := hreason
  obtain ⟨claims, hclaims, hpayment, rfl⟩ := expiry_of_credential hinit hc₀ hrow₀ ht
  exact ⟨claims, Leads.persists (authorizations_register.persists (R := R)) hleads hclaims,
    hpayment.trans hid, Leads.persists (clock_persists R _) hleads hlt.le⟩

/-- A recording that is made stands under an unexpired credential of its payment, and there is one.
-/
theorem not_made_after_expiry (hinit : ∀ w, D.initial w → w.authorizations = [])
    (h : Joined (machine R) D W.network (c, n)) {t : AuthorizationClaims}
    (ht : t ∈ c.world.authorizations) (hexpired : seconds t.exp ≤ c.world.clock) {r : Recording}
    (hmade : Made W c r) : r.arrival.body.paymentAuthorizationId ≠
      paymentAuthorizationText t.paymentAuthorizationId := by
  intro hid
  obtain ⟨t', ht', hclaims⟩ := hmade.signed
  have hpayment : t'.paymentAuthorizationId = t.paymentAuthorizationId := by
    refine paymentAuthorizationText_injective (Eq.trans ?_ hid)
    rw [← hmade.binds.payment, ← hclaims]
    rfl
  obtain rfl := List.inj_on_of_nodup_map (one_credential hinit h.reachable) ht' ht hpayment
  have hunexpired := hmade.unexpired
  rw [← hclaims] at hunexpired
  exact absurd hunexpired (not_lt.2 hexpired)

/-- **Once a row is `EXPIRED`, no charge is recorded for its payment any more.** -/
theorem expired_rows_take_no_charge
    (hinit : ∀ w, D.initial w → w.transactions = [] ∧ w.authorizations = [])
    (h : Joined (machine R) D W.network (c, n)) {row : Transaction}
    (hrow : row ∈ c.world.transactions) (hstate : row.state = .expired)
    (hleads : JointLeads (machine R) D W.network (c, n) (c', n')) :
    ∀ r ∈ n'.provider.recordings, r.arrival.body.paymentAuthorizationId =
      paymentAuthorizationText row.paymentAuthorizationId → r ∈ n.provider.recordings := by
  obtain ⟨t, ht, hpayment, hexpired⟩ :=
    expired_credential (fun w hw => (hinit w hw).1) h.reachable hrow hstate
  rw [← hpayment]
  refine (JointLeads.invariant (I := fun c' n' => t ∈ c'.world.authorizations ∧
    seconds t.exp ≤ c'.world.clock ∧ ∀ r ∈ n'.provider.recordings,
      r.arrival.body.paymentAuthorizationId = paymentAuthorizationText t.paymentAuthorizationId →
        r ∈ n.provider.recordings) h ?_ hleads ⟨ht, hexpired, fun _ hr _ => hr⟩).2.2
  -- the credential stays signed and stays expired, so no step records under it
  rintro x y hx hmove ⟨ht, hexpired, hold⟩
  have hlater : t ∈ y.1.world.authorizations ∧ seconds t.exp ≤ y.1.world.clock := by
    rcases hmove.fst with hmoves | heq
    · exact ⟨Leads.persists (authorizations_register.persists (R := R)) (.single hmoves) ht,
        Leads.persists (clock_persists R _) (.single hmoves) hexpired⟩
    · rw [heq]
      exact ⟨ht, hexpired⟩
  refine ⟨hlater.1, hlater.2, fun r hr hid => ?_⟩
  cases hmove with
  | spawn job hd => exact hold r hr hid
  | act env hd => exact hold r hr hid
  | @run c p tid job op next choice w answer hp ht' hd ho =>
      change r ∈ (p.notices _).provider.recordings at hr
      rw [notices_provider] at hr
      exact hold r hr hid
  | @partner c p p' a _ hact =>
      rcases made_of_act hact hr with hr | hmade
      · exact hold r hr hid
      · exact absurd hid (not_made_after_expiry (fun w hw => (hinit w hw).2) hx ht hexpired hmade)

end Expired

/-! ## A payment across the network -/

/-- The credential of the first payment, as it is encoded. -/
def firstClaims : TokenClaims where
  iss := "agentpay-control-plane"
  aud := authAudience
  sub := "u"
  jti := "pat_4"
  iat := 1000000
  exp := 1000300
  paymentAuthorizationId := "pa_0"
  agentId := "a"
  merchantId := "m"
  amount := "1"
  currency := "USD"
  cartHash := "[\x7b\"quantity\":1,\"sku\":\"s\",\"unit_price\":\"1\"\x7d]"
  policyVersion := "v1"

/-- An encoding that has a token for this credential alone. -/
def firstWire : Wire where
  encode claims := if claims = firstClaims then "t" else ""
  verifier := {
    verify := fun now token =>
      if token = "t" then
        if now < seconds firstClaims.exp then .ok firstClaims else .error .expiredSignature
      else .error (.invalidToken "Not enough segments")
    issued := fun claims => claims = firstClaims
    sound := fun now token claims h => by
      split at h
      · split at h
        case isTrue hnow =>
            cases h
            exact ⟨rfl, hnow⟩
        case isFalse => cases h
      · cases h }
  render _ := ""
  isoTime t := toString t

/-- A response on its way to a thread, for a payment. -/
def replyTo (dispatches : List Dispatch) (tid id i : ℕ) : Option Outcome :=
  ((dispatches.filter fun o => o.tid = tid ∧ o.paymentAuthorizationId = id)[i]?).map fun o =>
    .reply o.reply

theorem mem_of_replyTo {dispatches : List Dispatch} {tid id i : ℕ} {outcome : Outcome}
    (h : replyTo dispatches tid id i = some outcome) :
    ∃ reply, outcome = .reply reply ∧ ⟨tid, id, reply⟩ ∈ dispatches := by
  obtain ⟨⟨tid', id', reply⟩, ho, rfl⟩ := Option.map_eq_some_iff.1 h
  obtain ⟨hmem, hsame⟩ := List.mem_filter.1 (List.mem_of_getElem? ho)
  obtain ⟨rfl, rfl⟩ := of_decide_eq_true hsame
  exact ⟨reply, rfl, hmem⟩

/-- Every outcome that is no response is free. -/
def networkOffers : Partner.Offers Network Op Outcome NetworkStep where
  free
    | _, .reply _ => false
    | _, _ => true
  choice n tid op i :=
    match op with
    | .awaitCharge id => replyTo n.chargeReplies tid id i
    | .awaitQuery id => replyTo n.queryReplies tid id i
    | _ => none

theorem networkOffers_sound (R : Runtime) (W : Wire) :
    networkOffers.Sound W.network (machine R) where
  free n tid op choice w w' answer hfree hp := by
    cases op
    case awaitCharge | awaitQuery =>
        cases choice <;> cases hp <;> trivial
    all_goals trivial
  choice n tid op i choice w w' answer hchoice hp := by
    cases op <;> try cases hchoice
    case awaitCharge id =>
        obtain ⟨reply, rfl, hmem⟩ := mem_of_replyTo hchoice
        cases hp
        exact hmem
    case awaitQuery id =>
        obtain ⟨reply, rfl, hmem⟩ := mem_of_replyTo hchoice
        cases hp
        exact hmem
  admits _ _ _ _ := trivial

/-- The steps of the gateway in a run of both. -/
def byGateway (labels : List (Label Job Env Outcome)) :
    List (JointLabel Job Env Outcome NetworkStep) :=
  labels.map .machine

/-- Executes a schedule of both, and checks a decidable property of its end. -/
def settles (B : Partner World Job Outcome Op Op.Val Exn Response Network NetworkStep)
    (F : Partner.Offers Network Op Outcome NetworkStep)
    (schedule : List (JointLabel Job Env Outcome NetworkStep)) (p : Config × Network → Bool) :
    Bool :=
  (jointExecute (machine Scenario.runtime) B F
    ({ world := Scenario.world (Scenario.policy "u" 200 10 Scenario.threshold_fits) }, {})
    schedule).any p

theorem exists_joined {B : Partner World Job Outcome Op Op.Val Exn Response Network NetworkStep}
    {F : Partner.Offers Network Op Outcome NetworkStep} (hF : F.Sound B (machine Scenario.runtime))
    (hB : B.initial {}) {schedule : List (JointLabel Job Env Outcome NetworkStep)}
    {p : Config × Network → Bool} (h : settles B F schedule p = true) : ∃ c n,
      Joined (machine Scenario.runtime) fromScratch B (c, n) ∧ p (c, n) = true := by
  obtain ⟨⟨c, n⟩, hrun, hp⟩ := (Option.any_eq_true _ _).1 h
  exact ⟨c, n,
    Joined.leads (.initial (untouched_world _) hB) (.of_execute fromScratch_checked hF hrun),
    hp⟩

/-- A run of the gateway and the provider across the network. -/
theorem exists_joined_network {schedule : List (JointLabel Job Env Outcome NetworkStep)}
    {p : Config × Network → Bool} (h : settles firstWire.network networkOffers schedule p = true) :
    ∃ c n, Joined (machine Scenario.runtime) fromScratch firstWire.network (c, n) ∧
      p (c, n) = true :=
  exists_joined (networkOffers_sound _ _) ⟨.success, 30, rfl⟩ h

/-- A payment that the provider confirms. -/
def settled : List (JointLabel Job Env Outcome NetworkStep) :=
  byGateway ([Scenario.request Scenario.firstOrder true] ++
      steps 0 (Scenario.toInsertion ++ oks 29)) ++
    [.partner (.deliverCharge 0 "0123456789abcdef0"), .receive 0 0] ++ byGateway (steps 0 (oks 2))

theorem charges_match_rows_settled : ∃ (c : Config) (n : Network),
    n.provider.recordings.map (fun r => r.arrival.body.paymentAuthorizationId) = ["pa_0"] ∧
    (∀ r ∈ n.provider.recordings, ∃ row ∈ c.world.transactions, ChargeOf row r) ∧
    (n.provider.recordings.map fun r => r.arrival.body.paymentAuthorizationId).Nodup ∧
    ∀ e ∈ n.provider.charges, ∃ r ∈ n.provider.recordings,
      r.arrival.body.paymentAuthorizationId = e.1 ∧ r.charge = e.2 := by
  have hrun : settles firstWire.network networkOffers settled (fun x => decide
      (x.2.provider.recordings.map (fun r => r.arrival.body.paymentAuthorizationId) = ["pa_0"])) =
      true := by decide +kernel
  obtain ⟨c, n, h, hids⟩ := exists_joined_network hrun
  exact ⟨c, n, of_decide_eq_true hids,
    charges_match_rows (fun _ (h : Untouched _) => h.authorizations) h⟩

/-- A payment that is not executed, and expires. -/
def lapsed : List (JointLabel Job Env Outcome NetworkStep) :=
  byGateway ([Scenario.request Scenario.firstOrder false] ++
    steps 0 (Scenario.toInsertion ++ oks 28) ++
    [.act (.tick (seconds 301)), .spawn .expireStaleAuthorizations] ++ steps 1 (oks 6))

/-- Its token is presented with the body of its charge. -/
def presented : NetworkStep :=
  .present (some "Bearer t")
    ⟨"pa_0", "key-0001", "1", "USD", "m", firstClaims.cartHash⟩ "0123456789abcdef0"

theorem expired_rows_take_no_charge_presented : ∃ (c : Config) (n n' : Network),
    c.world.transactions.map (fun row => (row.paymentAuthorizationId, row.state)) =
      [(0, .expired)] ∧
    JointLeads (machine Scenario.runtime) fromScratch firstWire.network (c, n) (c, n') ∧
    n'.provider.callCount = 1 ∧
    ∀ r ∈ n'.provider.recordings, r.arrival.body.paymentAuthorizationId =
      paymentAuthorizationText 0 → r ∈ n.provider.recordings := by
  have hrun : settles firstWire.network networkOffers lapsed (fun x =>
      decide (x.1.world.transactions.map (fun row => (row.paymentAuthorizationId, row.state)) =
        [(0, PaymentState.expired)]) &&
      (firstWire.act x.1 x.2 presented).any fun n => decide (n.provider.callCount = 1)) = true := by
    decide +kernel
  obtain ⟨c, n, h, hend⟩ := exists_joined_network hrun
  obtain ⟨hrows, hact⟩ := Bool.and_eq_true_iff.1 hend
  obtain ⟨n', hact, hcount⟩ := (Option.any_eq_true _ _).1 hact
  have hleads :
      JointLeads (machine Scenario.runtime) fromScratch firstWire.network (c, n) (c, n') :=
    .single (.partner presented trivial hact)
  refine ⟨c, n, n', of_decide_eq_true hrows, hleads, of_decide_eq_true hcount, ?_⟩
  obtain ⟨row, hrow, hkey⟩ : ∃ row ∈ c.world.transactions,
      (row.paymentAuthorizationId, row.state) = (0, PaymentState.expired) := by
    rw [← List.mem_map, of_decide_eq_true hrows]
    exact List.mem_singleton_self _
  obtain ⟨hid, hstate⟩ := Prod.mk.inj hkey
  rw [← hid]
  exact expired_rows_take_no_charge
    (fun _ (h : Untouched _) => ⟨h.transactions, h.authorizations⟩) h hrow hstate hleads

end AgentPay.Properties
