import AgentPay.Properties.ResumedRuns
import AgentPay.Properties.Settlement

/-!
# A payment that failed is not charged

A row is `FAILED` when the policy blocked it, when the provider refused its charge, or when the
provider was asked about it and knew of no charge that was made. If what the gateway signs reaches
the provider in its charges alone, and a query arrives only when no charge for its payment is in
flight any more, nothing but declined charges is ever recorded for the payment
(`failed_rows_are_uncharged`). A query that overtakes the charge leaves a `FAILED` row that is
charged (`failed_row_overtaken`).
-/

set_option autoImplicit false

namespace AgentPay.Properties

open AgentPay.Library AgentPay.Library.Machine AgentPay.Gateway AgentPay.Provider

section Runs

variable {R : Runtime} {D : Discipline} {W : Wire} {c c' : Config} {n n' : Network}

/-! ## One charge for a payment -/

/-- A charge for the payment was sent. -/
def SentFor (c : Config) (id : ℕ) : Prop :=
  ∃ tid token body answer, ⟨.sendCharge token body, answer⟩ ∈ seenBy tid c.log ∧
    body.paymentAuthorizationId = id

theorem SentFor.leads {id : ℕ} (h : SentFor c id) (hleads : Leads (machine R) D c c') :
    SentFor c' id := by
  obtain ⟨tid, token, body, answer, hseen, hid⟩ := h
  exact ⟨tid, token, body, answer, (seen_of_leads hleads).mem hseen, hid⟩

/-- A charge that may be sent is the first for its payment. -/
theorem charge_apart (hc : Reachable (machine R) D c) {tid : ℕ} {s : Session}
    (hs : sessionOf c tid = some s) {token : AuthorizationClaims} {body : ChargeRequest}
    (hguard : Chargeable s token body) : ¬ SentFor c body.paymentAuthorizationId := by
  rintro ⟨tid', token', body', answer, hseen, hid⟩
  obtain ⟨c₀, h₀⟩ := instant_of_seen hc hseen
  obtain ⟨s₀, hs₀, -, -, -, row₀, -, hrow₀, -, -, -, -, -, hbody₀⟩ := h₀.custody
  obtain ⟨ev, hev, rfl, heq⟩ := mem_seenBy.1 hseen
  obtain ⟨s', hs', hcharged⟩ := charged_of_charge hc hev (by rw [(Sigma.mk.inj heq).1]; rfl)
  obtain ⟨hfirst, -, -, row, -, hrow, -, -, -, -, -, hbody⟩ := hguard
  by_cases htid : ev.tid = tid
  · rw [htid] at hs'
    cases hs.symm.trans hs'
    cases hfirst.symm.trans hcharged
  · -- jobs draw their payment ids apart
    have hdrawn := drawn_of_row (session_sound h₀.reachable hs₀) hrow₀
    refine drawn_disjoint hc htid hs' hs _
      (drawn_of_seen hs' (h₀.seen.mem (drawn_seen hs₀ hdrawn))) ?_
    rw [← hbody₀, hid, hbody]
    exact drawn_of_row (session_sound hc hs) hrow

/-- What a thread may do next, its protocol allows. -/
theorem guard_of_pending (hc : Reachable (machine R) D c) {tid : ℕ} {job : Job} {op : Op}
    {next : Except Exn op.Val → Py Response} (ht : c.threads[tid]? = some ⟨job, .call op next⟩) :
    ∃ s, sessionOf c tid = some s ∧ s.guard op := by
  obtain ⟨s, hs, hf⟩ := hc.follows custody Job.session (job_follows R) ht
  exact ⟨s, hs, hf.1⟩

/-! ## The course of charges -/

/-- The provider gave the payment up: it refused the charge, or said it had made none. -/
def GivenUp (n : Network) (id : ℕ) : Prop :=
  (∃ o ∈ n.chargeReplies, o.paymentAuthorizationId = id ∧ o.reply.RefusesCharge) ∨
    ∃ o ∈ n.queryReplies, o.paymentAuthorizationId = id ∧ o.reply.DeniesCharge

/-- No charge for the payment is in flight. -/
def NoneInFlight (n : Network) (id : ℕ) : Prop :=
  ∀ sent ∈ n.charges, sent.body.paymentAuthorizationId ≠ id

/-- No charge is recorded for the payment but declined ones. -/
def Uncharged (n : Network) (id : ℕ) : Prop :=
  ∀ r ∈ n.provider.recordings, r.arrival.body.paymentAuthorizationId = paymentAuthorizationText id →
    r.charge = .declined

/-- A payment is charged once, and one that was given up is not charged any more. -/
structure ChargeCourse (c : Config) (n : Network) : Prop where
  sent : ∀ sent ∈ n.charges, SentFor c sent.body.paymentAuthorizationId
  recorded : ∀ r ∈ n.provider.recordings, ∃ id, SentFor c id ∧
    r.arrival.body.paymentAuthorizationId = paymentAuthorizationText id
  asked : ∀ query ∈ n.queries, SentFor c query.2
  single : (n.charges.map fun sent => sent.body.paymentAuthorizationId).Nodup
  fresh : ∀ sent ∈ n.charges, ∀ r ∈ n.provider.recordings, r.arrival.body.paymentAuthorizationId ≠
    paymentAuthorizationText sent.body.paymentAuthorizationId
  table : ∀ r ∈ n.provider.recordings,
    n.provider.charges.lookup r.arrival.body.paymentAuthorizationId = some r.charge
  closed : ∀ id, GivenUp n id → SentFor c id ∧ NoneInFlight n id ∧ Uncharged n id

theorem ChargeCourse.mono (h : ChargeCourse c n) (hsent : ∀ id, SentFor c id → SentFor c' id) :
    ChargeCourse c' n where
  sent sent hmem := hsent _ (h.sent sent hmem)
  recorded r hr := (h.recorded r hr).imp fun id hid => ⟨hsent id hid.1, hid.2⟩
  asked query hmem := hsent _ (h.asked query hmem)
  single := h.single
  fresh := h.fresh
  table := h.table
  closed id hid := ⟨hsent id (h.closed id hid).1, (h.closed id hid).2⟩

/-- A charge leaves that is the first for its payment. -/
theorem ChargeCourse.send (h : ChargeCourse c n) {tid : ℕ} {token : AuthorizationClaims}
    {body : ChargeRequest} (hfirst : ¬ SentFor c body.paymentAuthorizationId)
    (hsent : ∀ id, SentFor c id ∨ id = body.paymentAuthorizationId → SentFor c' id) :
    ChargeCourse c' { n with charges := ⟨tid, token, body⟩ :: n.charges } where
  sent sent hmem := by
    rcases List.mem_cons.1 hmem with rfl | hmem
    · exact hsent _ (.inr rfl)
    · exact hsent _ (.inl (h.sent sent hmem))
  recorded r hr := (h.recorded r hr).imp fun id hid => ⟨hsent id (.inl hid.1), hid.2⟩
  asked query hmem := hsent _ (.inl (h.asked query hmem))
  single := by
    rw [List.map_cons, List.nodup_cons]
    refine ⟨fun hmem => ?_, h.single⟩
    obtain ⟨sent, hmem, heq⟩ := List.mem_map.1 hmem
    exact hfirst (heq ▸ h.sent sent hmem)
  fresh sent hmem r hr heq := by
    rcases List.mem_cons.1 hmem with rfl | hmem
    · obtain ⟨id, hid, hr⟩ := h.recorded r hr
      exact hfirst (paymentAuthorizationText_injective (hr.symm.trans heq) ▸ hid)
    · exact h.fresh sent hmem r hr heq
  table := h.table
  closed id hid := by
    obtain ⟨hid, hflight, huncharged⟩ := h.closed id hid
    refine ⟨hsent id (.inl hid), fun sent hmem heq => ?_, huncharged⟩
    rcases List.mem_cons.1 hmem with rfl | hmem
    · exact hfirst (heq ▸ hid)
    · exact hflight sent hmem heq

/-- A query leaves about a payment that was charged. -/
theorem ChargeCourse.ask (h : ChargeCourse c n) {tid id : ℕ} (hid : SentFor c id) :
    ChargeCourse c { n with queries := (tid, id) :: n.queries } where
  sent := h.sent
  recorded := h.recorded
  asked query hmem := by
    rcases List.mem_cons.1 hmem with rfl | hmem
    · exact hid
    · exact h.asked query hmem
  single := h.single
  fresh := h.fresh
  table := h.table
  closed := h.closed

/-- A charge in flight is for a payment that is not recorded nor given up, and no other is. -/
theorem ChargeCourse.in_flight (h : ChargeCourse c n) {i : ℕ} {sent : SentCharge}
    (hi : n.charges[i]? = some sent) :
    NoneInFlight { n with charges := n.charges.eraseIdx i } sent.body.paymentAuthorizationId ∧
      ¬ GivenUp n sent.body.paymentAuthorizationId := by
  refine ⟨fun other hmem heq => ?_, fun hup => ?_⟩
  · obtain ⟨hlt, rfl⟩ := List.getElem?_eq_some_iff.1 hi
    have hnodup := h.single.perm ((List.getElem_cons_eraseIdx_perm hlt).map _).symm
    rw [List.map_cons, List.nodup_cons] at hnodup
    exact hnodup.1 (List.mem_map.2 ⟨other, hmem, heq⟩)
  · exact (h.closed _ hup).2.1 sent (List.mem_of_getElem? hi) rfl

/-- A charge is in flight no more. -/
theorem ChargeCourse.land (h : ChargeCourse c n) (i : ℕ) :
    ChargeCourse c { n with charges := n.charges.eraseIdx i } where
  sent sent hmem := h.sent sent (List.mem_of_mem_eraseIdx hmem)
  recorded := h.recorded
  asked := h.asked
  single := h.single.sublist ((List.eraseIdx_sublist ..).map _)
  fresh sent hmem := h.fresh sent (List.mem_of_mem_eraseIdx hmem)
  table := h.table
  closed id hid := by
    obtain ⟨hsent, hflight, huncharged⟩ := h.closed id hid
    exact ⟨hsent, fun sent hmem => hflight sent (List.mem_of_mem_eraseIdx hmem), huncharged⟩

/-- The provider changes nothing that is recorded. -/
theorem ChargeCourse.same (h : ChargeCourse c n) (provider : State)
    (hrecordings : provider.recordings = n.provider.recordings)
    (hcharges : provider.charges = n.provider.charges) : ChargeCourse c { n with provider } where
  sent := h.sent
  recorded r hr := h.recorded r (hrecordings ▸ hr)
  asked := h.asked
  single := h.single
  fresh sent hmem r hr := h.fresh sent hmem r (hrecordings ▸ hr)
  table r hr := (congrArg _ hcharges).trans (h.table r (hrecordings ▸ hr))
  closed id hid := by
    obtain ⟨hsent, hflight, huncharged⟩ := h.closed id hid
    exact ⟨hsent, hflight, fun r hr => huncharged r (hrecordings ▸ hr)⟩

/-- A charge is recorded for a payment without one, that is not given up. -/
theorem ChargeCourse.record (h : ChargeCourse c n) {id : ℕ} (hid : SentFor c id)
    (hflight : NoneInFlight n id)
    (hup : ¬ GivenUp n id) (hnone : ∀ r ∈ n.provider.recordings,
      r.arrival.body.paymentAuthorizationId ≠ paymentAuthorizationText id)
    {a : Arrival} (ha : a.body.paymentAuthorizationId = paymentAuthorizationText id)
    (claims : TokenClaims) (charge : Charge) :
    ChargeCourse c { n with provider := (n.provider.count a).record a claims charge } where
  sent := h.sent
  recorded r hr := by
    rcases List.mem_append.1 hr with hr | hr
    · exact h.recorded r hr
    · rw [List.mem_singleton.1 hr]
      exact ⟨id, hid, ha⟩
  asked := h.asked
  single := h.single
  fresh sent hmem r hr := by
    rcases List.mem_append.1 hr with hr | hr
    · exact h.fresh sent hmem r hr
    · rw [List.mem_singleton.1 hr]
      exact fun heq => hflight sent hmem (paymentAuthorizationText_injective (heq.symm.trans ha))
  table r hr := by
    rcases List.mem_append.1 hr with hr | hr
    · exact (lookup_putKey_of_ne (ha ▸ hnone r hr) _ _).trans (h.table r hr)
    · rw [List.mem_singleton.1 hr]
      exact lookup_putKey_self _ _ _
  closed id' hid' := by
    obtain ⟨hsent, hflight', huncharged⟩ := h.closed id' hid'
    refine ⟨hsent, hflight', fun r hr heq => ?_⟩
    rcases List.mem_append.1 hr with hr | hr
    · exact huncharged r hr heq
    · rw [List.mem_singleton.1 hr] at heq
      cases paymentAuthorizationText_injective (heq.symm.trans ha)
      exact absurd hid' hup

/-- The response to a charge sets out. -/
theorem ChargeCourse.answer (h : ChargeCourse c n) {o : Dispatch}
    (hid : SentFor c o.paymentAuthorizationId)
    (hflight : NoneInFlight n o.paymentAuthorizationId)
    (huncharged : o.reply.RefusesCharge → Uncharged n o.paymentAuthorizationId) :
    ChargeCourse c { n with chargeReplies := o :: n.chargeReplies } where
  sent := h.sent
  recorded := h.recorded
  asked := h.asked
  single := h.single
  fresh := h.fresh
  table := h.table
  closed id hup := by
    rcases hup with ⟨o', ho', hrest⟩ | hup
    · rcases List.mem_cons.1 ho' with rfl | ho'
      · obtain ⟨rfl, hrefuses⟩ := hrest
        exact ⟨hid, hflight, huncharged hrefuses⟩
      · exact h.closed id (.inl ⟨o', ho', hrest⟩)
    · exact h.closed id (.inr hup)

/-- The response to a query sets out. -/
theorem ChargeCourse.tell (h : ChargeCourse c n) {o : Dispatch}
    (hid : SentFor c o.paymentAuthorizationId)
    (hflight : NoneInFlight n o.paymentAuthorizationId)
    (huncharged : o.reply.DeniesCharge → Uncharged n o.paymentAuthorizationId) :
    ChargeCourse c { n with queryReplies := o :: n.queryReplies } where
  sent := h.sent
  recorded := h.recorded
  asked := h.asked
  single := h.single
  fresh := h.fresh
  table := h.table
  closed id hup := by
    rcases hup with hup | ⟨o', ho', hrest⟩
    · exact h.closed id (.inl hup)
    · rcases List.mem_cons.1 ho' with rfl | ho'
      · obtain ⟨rfl, hdenies⟩ := hrest
        exact ⟨hid, hflight, huncharged hdenies⟩
      · exact h.closed id (.inr ⟨o', ho', hrest⟩)

/-! ## Steps -/

/-- The answer to a charge that is refused says it was declined. -/
theorem answer_refuses {r : Recording} (h : (W.chargeReply (.ok (answerTo r))).RefusesCharge) :
    r.charge = .declined := by
  cases hcharge : r.charge with
  | declined => rfl
  | confirmed text amount currency merchantId instant =>
      rw [answerTo, hcharge] at h
      rcases h with h | ⟨status, hstatus, h⟩
      · exact absurd (show 400 ≤ 200 from h) (by decide)
      · cases hstatus
        exact absurd (show Json.isText "confirmed" (.str "confirmed") = false from h) (by decide)

/-- The answer to a query that denies a charge is about none, or a declined one. -/
theorem getCharge_denies {s : State} {id : String} (h : (W.getCharge s id).DeniesCharge)
    {charge : Charge} (hcharge : s.charges.lookup id = some charge) : charge = .declined := by
  rw [Wire.getCharge, hcharge] at h
  cases charge with
  | declined => rfl
  | confirmed text amount currency merchantId instant =>
      rcases h with h | ⟨-, status, hstatus, h⟩
      · exact absurd (show 200 = 404 from h) (by decide)
      · cases hstatus
        have hstatus : hashableIn ["failed", "declined"] (.str "confirmed") = .ok true := h
        exact absurd hstatus (by decide)

theorem ChargeCourse.deliverCharge (h : ChargeCourse c n) {i : ℕ} {uuid : String}
    (hact : W.deliverCharge c n i uuid = some n') : ChargeCourse c n' := by
  obtain ⟨sent, hi, hact⟩ := Option.bind_eq_some_iff.1 hact
  simp only at hact
  split at hact
  case isFalse => cases hact
  case isTrue hun =>
      have hmem := List.mem_of_getElem? hi
      obtain ⟨hflight, hup⟩ := h.in_flight hi
      let a := W.arrival c.world.clock sent.token sent.body uuid
      rcases createCharge_records (s := n.provider) rfl hun with ⟨hnone, -⟩ |
        ⟨claims, charge, hrecord, -, -, hanswer⟩
      · rw [hnone] at hact
        have hcourse := (h.land i).same (n.provider.count a) rfl rfl
        -- nothing was recorded; whether the client still waits decides if the response sets out
        split at hact
        · cases hact
          exact hcourse
        · cases hact
          exact hcourse.answer (h.sent sent hmem) hflight
            fun _ r hr heq => absurd heq (h.fresh sent hmem r hr)
      · rw [hrecord, hanswer] at hact
        -- the charge is the first for its payment, and nobody gave the payment up
        have hcourse := (h.land i).record (a := a) (h.sent sent hmem) hflight hup
          (h.fresh sent hmem) rfl claims charge
        split at hact
        · cases hact
          exact hcourse
        · cases hact
          refine hcourse.answer (h.sent sent hmem) hflight fun hrefuses r hr heq => ?_
          rcases List.mem_append.1 hr with hr | hr
          · exact absurd heq (h.fresh sent hmem r hr)
          · rw [List.mem_singleton.1 hr]
            exact answer_refuses hrefuses

/-- A query arrives when no charge for its payment is in flight. -/
theorem ChargeCourse.deliverQuery (h : ChargeCourse c n) {i : ℕ}
    (hflight : ∀ query, n.queries[i]? = some query → NoneInFlight n query.2)
    (hact : W.deliverQuery n i = some n') : ChargeCourse c n' := by
  obtain ⟨⟨tid, id⟩, hi, rfl⟩ := Option.map_eq_some_iff.1 hact
  have hcourse : ChargeCourse c { n with queries := n.queries.eraseIdx i } :=
    { h with asked := fun query hmem => h.asked query (List.mem_of_mem_eraseIdx hmem) }
  refine hcourse.tell (h.asked _ (List.mem_of_getElem? hi)) (hflight _ hi)
    fun hdenies r hr heq => ?_
  exact getCharge_denies hdenies (heq ▸ h.table r hr)

/-- What the gateway signs reaches the provider in its charges alone, and a query arrives only when
no charge for its payment is in flight. -/
def NoOvertaking (_ : Config) (n : Network) : NetworkStep → Prop
  | .present .. => False
  | .deliverQuery i => ∀ query, n.queries[i]? = some query → NoneInFlight n query.2
  | _ => True

theorem ChargeCourse.act (h : ChargeCourse c n) {step : NetworkStep} (ho : NoOvertaking c n step)
    (hact : W.act c n step = some n') : ChargeCourse c n' := by
  cases step with
  | deliverCharge i uuid => exact h.deliverCharge hact
  | present authorization body uuid => exact absurd ho id
  | loseCharge i =>
      simp only [Wire.act, loseCharge] at hact
      split at hact <;> cases hact
      exact h.land i
  | deliverQuery i => exact h.deliverQuery ho hact
  | setBehaviour behaviour delay =>
      cases hact
      exact h.same _ rfl rfl

/-- The provider behind a network that keeps this order. -/
abbrev orderedNetwork (W : Wire) :
    Partner World Job Outcome Op Op.Val Exn Response Network NetworkStep :=
  W.network.only NoOvertaking

theorem joined_of_ordered (h : Joined (machine R) D (orderedNetwork W) (c, n)) :
    Joined (machine R) D W.network (c, n) := h.of_only fun _ _ _ => trivial

theorem chargeCourse (hinit : ∀ w, D.initial w → w.transactions = [])
    (h : Joined (machine R) D (orderedNetwork W) (c, n)) : ChargeCourse c n := by
  refine Joined.invariant (I := ChargeCourse) ?_ ?_ h
  · rintro w _ - ⟨behaviour, delay, rfl⟩
    refine ⟨?_, ?_, ?_, List.nodup_nil, ?_, ?_, ?_⟩
    case refine_6 => rintro id (⟨o, ho, -⟩ | ⟨o, ho, -⟩) <;> cases ho
    all_goals exact fun _ hmem => absurd hmem List.not_mem_nil
  · intro x y hx hmove hcourse
    have hsent : ∀ {id}, SentFor x.1 id → SentFor y.1 id := by
      intro id hid
      rcases hmove.fst with hmoves | heq
      · exact hid.leads (.single hmoves)
      · rwa [heq]
    cases hmove with
    | spawn job hd => exact hcourse.mono fun _ => hsent
    | act env hd => exact hcourse.mono fun _ => hsent
    | @run c p tid job op next choice w answer ht hp hd ho =>
        obtain ⟨s, hs, hguard⟩ := guard_of_pending hx.reachable ht
        cases op
        case sendCharge token body =>
            -- custody lets a payment be charged once
            refine hcourse.send (charge_apart hx.reachable hs hguard) fun id hid => ?_
            rcases hid with hid | rfl
            · exact hsent hid
            · exact ⟨tid, token, body, answer, seenBy_cons_self .. ▸ List.mem_cons_self, rfl⟩
        case sendQuery id =>
            -- only a payment whose charge was sent is asked about
            have hcharged := charged_of_unknowns hinit hx.reachable hs hguard
            obtain ⟨tid', token, body, answer', hseen, -, -, hid⟩ := hcharged.sent
            exact (hcourse.mono fun _ => hsent).ask (hsent ⟨tid', token, body, answer', hseen, hid⟩)
        all_goals exact hcourse.mono fun _ => hsent
    | @partner c p p' a ha hact => exact hcourse.act ha hact

/-! ## Failed rows -/

/-- A charge that is recorded is that of a payment that was allowed, from its insertion on. -/
theorem allowed_of_recorded
    (hinit : ∀ w, D.initial w → w.transactions = [] ∧ w.authorizations = [])
    (h : Joined (machine R) D W.network (c, n)) {row : Transaction}
    (hrow : row ∈ c.world.transactions.map Transaction.asInserted) {r : Recording}
    (hr : r ∈ n.provider.recordings) (hid : r.arrival.body.paymentAuthorizationId =
      paymentAuthorizationText row.paymentAuthorizationId) : row.decision = .allow := by
  obtain ⟨row', hrow', hof⟩ := row_of_recorded (fun w hw => (hinit w hw).2) h hr
  have hk := primaryKey_of_reachable (fun w hw => (hinit w hw).1) h.reachable
  have hsame := asInserted_eq hk hrow' hrow
    (paymentAuthorizationText_injective (hid.symm.trans hof.id))
  rw [← hsame]
  exact hof.allowed

/-- **Nothing but declined charges is ever recorded for the payment of a row that is `FAILED`.** -/
theorem failed_rows_are_uncharged
    (hinit : ∀ w, D.initial w → w.transactions = [] ∧ w.authorizations = [])
    (h : Joined (machine R) D (orderedNetwork W) (c, n)) {row : Transaction}
    (hrow : row ∈ c.world.transactions) (hstate : row.state = .failed)
    (hleads : JointLeads (machine R) D (orderedNetwork W) (c, n) (c', n')) :
    ∀ r ∈ n'.provider.recordings, r.arrival.body.paymentAuthorizationId =
      paymentAuthorizationText row.paymentAuthorizationId → r.charge = .declined := by
  intro r hr hid
  have h' := h.leads hleads
  have hempty : ∀ w, D.initial w → w.transactions = [] := fun w hw => (hinit w hw).1
  have hclosed := (chargeCourse hempty h').closed row.paymentAuthorizationId
  have hreason := reason_of_row hempty h.reachable hrow
  simp only [Reason, hstate] at hreason
  rcases hreason with hblock | ⟨-, -, reply, hanswered⟩
  · -- a blocked row signs no credential, and no charge is recorded without one
    have hkept :=
      Leads.persists (row_persists R row.asInserted) hleads.fst (List.mem_map_of_mem hrow)
    have hallow := allowed_of_recorded hinit (joined_of_ordered h') hkept hr hid
    cases hblock.symm.trans hallow
  · -- the reply that failed the row left the provider when it had given the payment up
    have hh := heard (joined_of_ordered h')
    refine (hclosed ?_).2.2 r hr hid
    rcases hanswered with ⟨hcharge, hrefuses⟩ | ⟨hquery, hdenies⟩
    · obtain ⟨tid, hseen⟩ := hcharge.leads hleads.fst
      exact .inl ⟨_, hh.charge _ _ _ hseen, rfl, hrefuses⟩
    · obtain ⟨tid, hseen⟩ := hquery.leads hleads.fst
      exact .inr ⟨_, hh.query _ _ _ hseen, rfl, hdenies⟩

end Runs

/-! ## Failed payments across the network -/

/-- The check that a query overtakes no charge, and that nobody presents a token. -/
def orderedOffers : Partner.Offers Network Op Outcome NetworkStep :=
  { networkOffers with
    admits := fun n step => match step with
      | .present .. => false
      | .deliverQuery i => (n.queries[i]?).all fun query =>
          n.charges.all fun sent => decide (sent.body.paymentAuthorizationId ≠ query.2)
      | _ => true }

theorem orderedOffers_sound (R : Runtime) (W : Wire) :
    orderedOffers.Sound (orderedNetwork W) (machine R) where
  free := (networkOffers_sound R W).free
  choice := (networkOffers_sound R W).choice
  admits c n step hadmits := by
    cases step with
    | present authorization body uuid => cases hadmits
    | deliverQuery i =>
        intro query hi sent hmem
        change (n.queries[i]?).all _ = true at hadmits
        rw [hi] at hadmits
        exact of_decide_eq_true (List.all_eq_true.1 hadmits sent hmem)
    | _ => trivial

/-- A payment that the provider declines. -/
def declined : List (JointLabel Job Env Outcome NetworkStep) :=
  [.partner (.setBehaviour .decline none)] ++
    byGateway ([Scenario.request Scenario.firstOrder true] ++
      steps 0 (Scenario.toInsertion ++ oks 29)) ++
    [.partner (.deliverCharge 0 "0123456789abcdef0"), .receive 0 0] ++ byGateway (steps 0 (oks 2))

theorem failed_rows_are_uncharged_declined : ∃ (c : Config) (n : Network),
    c.world.transactions.map (fun row => (row.paymentAuthorizationId, row.state)) = [(0, .failed)] ∧
    n.provider.recordings.map (fun r => r.arrival.body.paymentAuthorizationId) =
      [paymentAuthorizationText 0] ∧
    ∀ r ∈ n.provider.recordings, r.arrival.body.paymentAuthorizationId =
      paymentAuthorizationText 0 → r.charge = .declined := by
  have hrun : settles (orderedNetwork firstWire) orderedOffers declined (fun x =>
      decide (x.1.world.transactions.map (fun row => (row.paymentAuthorizationId, row.state)) =
        [(0, PaymentState.failed)]) &&
      decide (x.2.provider.recordings.map (fun r => r.arrival.body.paymentAuthorizationId) =
        [paymentAuthorizationText 0])) = true := by decide +kernel
  obtain ⟨c, n, h, hend⟩ := exists_joined (orderedOffers_sound _ _) ⟨.success, 30, rfl⟩ hrun
  obtain ⟨hrows, hids⟩ := Bool.and_eq_true_iff.1 hend
  refine ⟨c, n, of_decide_eq_true hrows, of_decide_eq_true hids, ?_⟩
  obtain ⟨row, hrow, hkey⟩ : ∃ row ∈ c.world.transactions,
      (row.paymentAuthorizationId, row.state) = (0, PaymentState.failed) := by
    rw [← List.mem_map, of_decide_eq_true hrows]
    exact List.mem_singleton_self _
  obtain ⟨hid, hstate⟩ := Prod.mk.inj hkey
  rw [← hid]
  exact failed_rows_are_uncharged (fun _ (h : Untouched _) => ⟨h.transactions, h.authorizations⟩) h
    hrow hstate .refl

/-- The gateway gives up waiting and asks, and the query arrives before the charge. -/
def overtaken : List (JointLabel Job Env Outcome NetworkStep) :=
  byGateway ([Scenario.request Scenario.firstOrder true] ++
      steps 0 (Scenario.toInsertion ++ oks 29 ++ [.fault (.httpTimeout "") false] ++ oks 11) ++
      [.spawn .reconcileUnknown] ++ steps 1 (oks 3)) ++
    [.partner (.deliverQuery 0), .partner (.deliverCharge 0 "0123456789abcdef0"), .receive 1 0] ++
    byGateway (steps 1 (oks 2))

/-- Without order among them, a row is `FAILED` and its charge is confirmed. -/
theorem failed_row_overtaken : ∃ (c : Config) (n : Network),
    Joined (machine Scenario.runtime) fromScratch firstWire.network (c, n) ∧
    c.world.transactions.map (fun row => row.state) = [.failed] ∧
    n.provider.recordings.map (fun r => r.charge) =
      [.confirmed "ch_0123456789abcdef" "1" "USD" "m" (seconds 1000000)] := by
  have hrun : settles firstWire.network networkOffers overtaken (fun x =>
      decide (x.1.world.transactions.map (fun row => row.state) = [PaymentState.failed]) &&
      decide (x.2.provider.recordings.map (fun r => r.charge) =
        [.confirmed "ch_0123456789abcdef" "1" "USD" "m" (seconds 1000000)])) = true := by
    decide +kernel
  obtain ⟨c, n, h, hend⟩ := exists_joined_network hrun
  obtain ⟨hrows, hcharges⟩ := Bool.and_eq_true_iff.1 hend
  exact ⟨c, n, h, of_decide_eq_true hrows, of_decide_eq_true hcharges⟩

end AgentPay.Properties
