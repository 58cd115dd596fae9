import AgentPay.Provider.Charges

/-!
# Tokens at the provider

Every charge the provider records was authorized by a token it verified for that request, which binds
what is recorded, and the token was consumed with the recording. The identifiers consumed are those
of the recordings, so no token stands behind two of them, whatever the provider's behaviour was
between the uses.
-/

set_option autoImplicit false

namespace AgentPay.Properties

open AgentPay.Library AgentPay.Gateway AgentPay.Provider

/-! ## One request -/

/-- The token binds the body: the same merchant, currency, cart and payment, and numerically the same
amount. -/
structure Binds (claims : TokenClaims) (body : ChargeBody) : Prop where
  merchant : claims.merchantId = body.merchantId
  currency : claims.currency = body.currency
  cart : claims.cartHash = body.cartHash
  payment : claims.paymentAuthorizationId = body.paymentAuthorizationId
  amount : ∃ x y, DecimalValue.read claims.amount = some x ∧ DecimalValue.read body.amount = some y ∧
    DecimalValue.same x y = true

variable {V : Verifier} {s : State} {a : Arrival} {claims : TokenClaims}

theorem amount_of_not_differ {body : ChargeBody} (h : amountsDiffer claims body = .ok false) :
    ∃ x y, DecimalValue.read claims.amount = some x ∧ DecimalValue.read body.amount = some y ∧
      DecimalValue.same x y = true := by
  rw [amountsDiffer] at h
  split at h
  case h_1 x y hx hy =>
      split at h
      case h_1 different hdiffer =>
          cases h
          exact ⟨x, y, hx, hy, DecimalValue.same_of_differ hdiffer⟩
      case h_2 => cases h
  case h_2 => cases h

theorem bind_ok {α β : Type} {x : Except Failure α} {f : α → Except Failure β} {b : β}
    (h : (x >>= f) = .ok b) : ∃ a, x = .ok a ∧ f a = .ok b := by
  cases x with
  | error e => cases h
  | ok a => exact ⟨a, rfl, h⟩

/-- No field is named when all agree. -/
theorem binds_of_check {body : ChargeBody} (h : checkBinding claims body = .ok ()) :
    Binds claims body := by
  rw [checkBinding] at h
  obtain ⟨different, hdifferent, h⟩ := bind_ok h
  by_cases hfields : mismatches claims body ++ (if different then ["amount"] else []) = []
  · obtain ⟨hnames, hamount⟩ := List.append_eq_nil_iff.1 hfields
    obtain rfl : different = false := by
      cases different with
      | false => rfl
      | true => cases hamount
    rw [mismatches, List.filterMap_eq_nil_iff] at hnames
    have hagree : ∀ name token value,
        (name, token, value) ∈ [("merchant_id", claims.merchantId, body.merchantId),
          ("currency", claims.currency, body.currency),
          ("cart_hash", claims.cartHash, body.cartHash),
          ("payment_authorization_id", claims.paymentAuthorizationId,
            body.paymentAuthorizationId)] → token = value := by
      intro name token value hmem
      by_contra hne
      have hnone := hnames _ hmem
      rw [if_pos hne] at hnone
      cases hnone
    exact {
      merchant := hagree "merchant_id" _ _ (by simp)
      currency := hagree "currency" _ _ (by simp)
      cart := hagree "cart_hash" _ _ (by simp)
      payment := hagree "payment_authorization_id" _ _ (by simp)
      amount := amount_of_not_differ hdifferent }
  · change (if mismatches claims body ++ (if different then ["amount"] else []) ≠ [] then _ else _ :
      Except Failure Unit) = _ at h
    rw [if_pos hfields] at h
    cases h

/-- The request carries a token that verifies to the claims. -/
def Presents (V : Verifier) (a : Arrival) (claims : TokenClaims) : Prop :=
  ∃ token, bearerToken a.authorization = some token ∧ V.verify a.now token = .ok claims

theorem presents_of_verified (h : verifiedClaims V a = .ok claims) : Presents V a claims := by
  rw [verifiedClaims] at h
  split at h
  case h_1 => cases h
  case h_2 token htoken =>
      split at h
      case h_1 verified hverified =>
          cases h
          exact ⟨token, htoken, hverified⟩
      case h_2 => cases h
      case h_3 => cases h

/-- What the checks let through. -/
theorem authorizeCharge_ok (h : authorizeCharge V s a = .ok claims) :
    Presents V a claims ∧ claims.jti ∉ s.consumedJti ∧ Binds claims a.body := by
  rw [authorizeCharge] at h
  obtain ⟨verified, hverified, h⟩ := bind_ok h
  split at h
  case isTrue => cases h
  case isFalse hfresh =>
      obtain ⟨_, hcheck, h⟩ := bind_ok h
      cases h
      exact ⟨presents_of_verified hverified, hfresh, binds_of_check hcheck⟩

/-- A confirmed charge repeats the body of its request. -/
def Charge.Repeats (body : ChargeBody) : Charge → Prop
  | .declined => True
  | .confirmed _ amount currency merchantId _ =>
      amount = body.amount ∧ currency = body.currency ∧ merchantId = body.merchantId

/-- A request records nothing, or one charge under the token that authorized it. -/
theorem createCharge_cases (V : Verifier) (s : State) (a : Arrival) :
    (createCharge V s a).1 = s.count a ∨
      ∃ claims charge, (createCharge V s a).1 = (s.count a).record a claims charge ∧
        Presents V a claims ∧ claims.jti ∉ s.consumedJti ∧ Binds claims a.body ∧
          Charge.Repeats a.body charge := by
  rw [createCharge]
  cases hclaims : authorizeCharge V (s.count a) a with
  | error e => exact .inl rfl
  | ok claims =>
      obtain ⟨hpresents, hfresh, hbinds⟩ := authorizeCharge_ok hclaims
      simp only
      cases (s.count a).behaviour with
      | timeout => exact .inl rfl
      | error => exact .inl rfl
      | decline => exact .inr ⟨claims, _, rfl, hpresents, hfresh, hbinds, trivial⟩
      | success => exact .inr ⟨claims, _, rfl, hpresents, hfresh, hbinds, rfl, rfl, rfl⟩

/-! ## Runs -/

/-- A recording was made under a verified, unexpired token that binds what it repeats. -/
structure Honoured (V : Verifier) (r : Recording) : Prop where
  presents : Presents V r.arrival r.claims
  binds : Binds r.claims r.arrival.body
  repeats : Charge.Repeats r.arrival.body r.charge

theorem Honoured.unexpired {r : Recording} (h : Honoured V r) :
    V.issued r.claims ∧ r.arrival.now < seconds r.claims.exp := by
  obtain ⟨token, -, hverify⟩ := h.presents
  exact V.sound _ token _ hverify

/-- The invariant of the provider: the recordings are honoured, and their tokens are those consumed,
each once. -/
structure Accounted (V : Verifier) (s : State) : Prop where
  honoured : ∀ r ∈ s.recordings, Honoured V r
  consumed : s.consumedJti = (s.recordings.map fun r => r.claims.jti).reverse
  once : (s.recordings.map fun r => r.claims.jti).Nodup
  charges : ∀ e ∈ s.charges, ∃ r ∈ s.recordings,
    r.arrival.body.paymentAuthorizationId = e.1 ∧ r.charge = e.2

theorem Accounted.count (h : Accounted V s) (a : Arrival) : Accounted V (s.count a) :=
  ⟨h.honoured, h.consumed, h.once, h.charges⟩

theorem Accounted.record (h : Accounted V s) {charge : Charge} (hpresents : Presents V a claims)
    (hfresh : claims.jti ∉ s.consumedJti) (hbinds : Binds claims a.body)
    (hrepeats : Charge.Repeats a.body charge) : Accounted V (s.record a claims charge) := by
  refine ⟨fun r hr => ?_, ?_, ?_, fun e he => ?_⟩
  · rcases List.mem_append.1 hr with hr | hr
    · exact h.honoured r hr
    · rw [List.mem_singleton.1 hr]
      exact ⟨hpresents, hbinds, hrepeats⟩
  · rw [State.record, List.map_append, List.reverse_append, ← h.consumed]
    rfl
  · rw [h.consumed, List.mem_reverse] at hfresh
    rw [State.record, List.map_append]
    refine h.once.append (List.nodup_singleton _) fun jti hjti hlast => ?_
    rw [List.map_singleton, List.mem_singleton] at hlast
    exact hfresh (hlast ▸ hjti)
  · rcases List.mem_cons.1 he with rfl | he
    · exact ⟨⟨a, claims, charge⟩, List.mem_append_right _ (List.mem_singleton_self _), rfl, rfl⟩
    · obtain ⟨r, hr, heq⟩ := h.charges e (List.mem_of_mem_filter he)
      exact ⟨r, List.mem_append_left _ hr, heq⟩

/-- Whatever arrives keeps the invariant. -/
theorem Accounted.step (h : Accounted V s) (e : ProviderEvent) : Accounted V (s.step V e) := by
  cases e with
  | behaviour b delay => exact ⟨h.honoured, h.consumed, h.once, h.charges⟩
  | charge a =>
      rw [State.step]
      rcases createCharge_cases V s a with heq | ⟨claims, charge, heq, hp, hfresh, hbinds, hrepeats⟩
      · rw [heq]
        exact h.count a
      · rw [heq]
        exact (h.count a).record hp hfresh hbinds hrepeats

/-- What is recorded was asked for. -/
theorem mem_recordings_step {r : Recording} {e : ProviderEvent} (h : r ∈ (s.step V e).recordings) :
    r ∈ s.recordings ∨ e = .charge r.arrival := by
  cases e with
  | behaviour b delay => exact .inl h
  | charge a =>
      rw [State.step] at h
      rcases createCharge_cases V s a with heq | ⟨claims, charge, heq, -⟩
      · rw [heq] at h
        exact .inl h
      · rw [heq] at h
        refine (List.mem_append.1 h).imp id fun hr => ?_
        rw [List.mem_singleton.1 hr]

theorem Accounted.run (h : Accounted V s) (events : List ProviderEvent) : Accounted V (s.run V events) ∧
    ∀ r ∈ (s.run V events).recordings, r ∈ s.recordings ∨ .charge r.arrival ∈ events := by
  induction events generalizing s with
  | nil => exact ⟨h, fun r hr => .inl hr⟩
  | cons e events ih =>
      obtain ⟨hsound, hrecordings⟩ := ih (h.step e)
      refine ⟨hsound, fun r hr => ?_⟩
      rcases hrecordings r hr with hr | hr
      · refine (mem_recordings_step hr).imp id fun heq => ?_
        rw [heq]
        exact List.mem_cons_self
      · exact .inr (List.mem_cons_of_mem _ hr)

/-- The provider honours a token at most once and only for what it binds: in every run of charge
requests and changes of behaviour, every confirmed recording answers a request of the run and stands
under a verified, unexpired token that binds what it repeats, no two recordings stand under one token
identifier, and every entry of the charges is one of the recordings. -/
theorem honoured_at_most_once (V : Verifier) (behaviour : Behaviour) (delay : ℚ)
    (events : List ProviderEvent) :
    let s := State.run V { behaviour := behaviour, timeoutDelaySeconds := delay } events
    (∀ r ∈ s.recordings, ∀ reference amount currency merchantId instant,
      r.charge = .confirmed reference amount currency merchantId instant →
        .charge r.arrival ∈ events ∧ Presents V r.arrival r.claims ∧
          V.issued r.claims ∧ r.arrival.now < seconds r.claims.exp ∧
          r.claims.merchantId = merchantId ∧ r.claims.currency = currency ∧
          r.claims.paymentAuthorizationId = r.arrival.body.paymentAuthorizationId ∧
          (∃ x y, DecimalValue.read r.claims.amount = some x ∧
            DecimalValue.read amount = some y ∧ DecimalValue.same x y = true) ∧
          r.claims.cartHash = r.arrival.body.cartHash) ∧
      (s.recordings.map fun r => r.claims.jti).Nodup ∧
      ∀ e ∈ s.charges, ∃ r ∈ s.recordings,
        r.arrival.body.paymentAuthorizationId = e.1 ∧ r.charge = e.2 := by
  intro s
  have hfresh : Accounted V { behaviour := behaviour, timeoutDelaySeconds := delay } :=
    ⟨fun r hr => absurd hr List.not_mem_nil, rfl, List.nodup_nil,
      fun e he => absurd he List.not_mem_nil⟩
  obtain ⟨hsound, hrecordings⟩ := hfresh.run events
  refine ⟨fun r hr reference amount currency merchantId instant hcharge => ?_, hsound.once,
    hsound.charges⟩
  have hr' := hsound.honoured r hr
  have hrepeats := hr'.repeats
  rw [hcharge] at hrepeats
  obtain ⟨rfl, rfl, rfl⟩ := hrepeats
  exact ⟨(hrecordings r hr).resolve_left List.not_mem_nil, hr'.presents, hr'.unexpired.1,
    hr'.unexpired.2, hr'.binds.merchant, hr'.binds.currency, hr'.binds.payment, hr'.binds.amount,
    hr'.binds.cart⟩

/-- A token of five minutes, and the verification that knows no other. -/
def fiveMinutes : TokenClaims where
  iss := "agentpay"
  aud := "agentpay-provider"
  sub := "u"
  jti := "pat_1"
  iat := 0
  exp := 300
  paymentAuthorizationId := "pa_1"
  agentId := "a"
  merchantId := "m"
  amount := "12.50"
  currency := "USD"
  cartHash := "h"
  policyVersion := "v1"

def onlyFiveMinutes : Verifier where
  verify now token :=
    if token = "t" then
      if now < seconds fiveMinutes.exp then .ok fiveMinutes else .error .expiredSignature
    else .error (.invalidToken "Not enough segments")
  issued claims := claims = fiveMinutes
  sound now token claims h := by
    split at h
    · split at h
      case isTrue hnow =>
          cases h
          exact ⟨rfl, hnow⟩
      case isFalse => cases h
    · cases h

/-- The token is presented while the provider fails, then twice while it works. -/
theorem honoured_once_retried :
    let a (now : Time) : Arrival := ⟨now, some "Bearer t", ⟨"pa_1", "k", "12.5", "USD", "m", "h"⟩, ""⟩
    let s := State.run onlyFiveMinutes { behaviour := .error, timeoutDelaySeconds := 30 }
      [.charge (a 0), .behaviour .success none, .charge (a 1), .charge (a 2)]
    s.charges = [("pa_1", .confirmed "ch_" "12.5" "USD" "m" 1)] ∧
      (s.recordings.map fun r => r.claims.jti).Nodup :=
  ⟨by decide +kernel, (honoured_at_most_once onlyFiveMinutes .error 30 _).2.1⟩

end AgentPay.Properties
