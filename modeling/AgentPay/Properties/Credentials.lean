import AgentPay.Properties.ApprovalSpent
import AgentPay.Properties.Reasons

/-!
# What the gateway's signature stands for

The gateway signs two kinds of claims. In a run without signed claims at first, a payment credential
is that of an allowed row and names its user, merchant, amount, currency and cart, and no payment
has two (`credentials_match_rows`). In a run from an empty store, an approval is that of a row that
was parked for a human, and is bound to what the row says (`approvals_match_parked_rows`).
-/

set_option autoImplicit false

namespace AgentPay.Properties

open AgentPay.Library AgentPay.Library.Machine AgentPay.Gateway

section Runs

variable {R : Runtime} {D : Discipline} {c c' : Config}

/-! ## Payment credentials -/

/-- The credential is that of the row. -/
structure CredentialOf (row : Transaction) (claims : AuthorizationClaims) : Prop where
  id : row.paymentAuthorizationId = claims.paymentAuthorizationId
  allowed : row.decision = .allow
  userId : row.userId = claims.sub
  merchantId : row.merchantId = claims.merchantId
  currency : row.currency = claims.currency
  cartHash : row.cartHash = claims.cartHash
  amount : ∃ amount : Decimal, claims.amount = amount.str ∧ row.amount = hundredths amount

/-- A credential that may be signed is that of the row of the job. -/
theorem credential_of_issuable {s : Session} (hs : Sound s) {claims : AuthorizationClaims}
    (h : Issuable s claims) : ∃ row, s.row = some row ∧ CredentialOf row claims := by
  obtain ⟨-, row, txn, hrow, hallow, htxn, hsub, hid, hmerchant, hamount, hcurrency, hcart⟩ := h
  obtain ⟨txn', verdict, risk, t, htxn', -, rfl⟩ := hs.recorded row hrow
  cases htxn.symm.trans htxn'
  exact ⟨_, hrow, hid.symm, hallow, hsub.symm, hmerchant.symm, hcurrency.symm, hcart.symm,
    txn.amount, hamount, rfl⟩

theorem CredentialOf.congr {row row' : Transaction} {claims : AuthorizationClaims}
    (h : CredentialOf row claims) (heq : row'.asInserted = row.asInserted) :
    CredentialOf row' claims := by
  have hfield : ∀ {α : Type} (field : Transaction → α),
      field row'.asInserted = field row.asInserted :=
    fun field => congrArg field heq
  obtain ⟨amount, hclaims, hamount⟩ := h.amount
  exact ⟨(hfield Transaction.paymentAuthorizationId).trans h.id,
    (hfield Transaction.decision).trans h.allowed, (hfield Transaction.userId).trans h.userId,
    (hfield Transaction.merchantId).trans h.merchantId,
    (hfield Transaction.currency).trans h.currency, (hfield Transaction.cartHash).trans h.cartHash,
    amount, hclaims, (hfield Transaction.amount).trans hamount⟩

/-- A signed credential is that of a row of the table. -/
theorem row_of_signed (hc : Reachable (machine R) D c) {tid : ℕ} {claims : AuthorizationClaims}
    {answer : Except Exn Unit} (h : ⟨.signAuthorization claims, answer⟩ ∈ seenBy tid c.log) :
    ∃ row ∈ c.world.transactions, CredentialOf row claims := by
  obtain ⟨c₀, h₀⟩ := instant_of_seen hc h
  obtain ⟨s, hs, hguard⟩ := h₀.custody
  obtain ⟨row, hrow, hof⟩ := credential_of_issuable (session_sound h₀.reachable hs) hguard
  have hrecorded := Leads.persists (row_persists R row) h₀.leads (row_recorded h₀.reachable hs hrow)
  obtain ⟨r, hr, heq⟩ := List.mem_map.1 hrecorded
  exact ⟨r, hr, hof.congr (by rw [← heq]; rfl)⟩

/-- The identifier of its row is one the job drew. -/
theorem drawn_of_row {s : Session} (hs : Sound s) {row : Transaction} (hrow : s.row = some row) :
    row.paymentAuthorizationId ∈ s.drawn := by
  obtain ⟨txn, verdict, risk, t, htxn, -, rfl⟩ := hs.recorded row hrow
  obtain ⟨intent, hcanonical⟩ := hs.canonical txn htxn
  exact hcanonical.drawn

/-- The payment of a credential is one whose identifier the job drew. -/
theorem drawn_of_issuable {s : Session} (hs : Sound s) {claims : AuthorizationClaims}
    (h : Issuable s claims) : claims.paymentAuthorizationId ∈ s.drawn := by
  obtain ⟨-, row, txn, hrow, -, -, -, hid, -⟩ := h
  rw [hid]
  exact drawn_of_row hs hrow

/-- A signature does not fail. -/
theorem perform_sign {w w' : World} {claims : AuthorizationClaims} {o : Outcome}
    {answer : Except Exn Unit}
    (h : w.perform (.signAuthorization claims) o = some (w', answer)) : answer = .ok () := by
  cases o <;> simp only [World.perform, Op.isLocal, World.answer, World.value, Option.map_some,
    Option.map_none, Option.some.injEq, Prod.mk.injEq, if_true, reduceCtorEq] at h
  exact h.2.symm

/-- A credential that may be signed is that of a payment without one. -/
theorem signed_apart (hc : Reachable (machine R) D c) {tid tid' : ℕ} {s : Session}
    {claims claims' : AuthorizationClaims} (hs : sessionOf c tid = some s) (h : Issuable s claims)
    {answer : Except Exn Unit} (h' : ⟨.signAuthorization claims', answer⟩ ∈ seenBy tid' c.log) :
    claims'.paymentAuthorizationId ≠ claims.paymentAuthorizationId := by
  obtain ⟨c₀, h₀⟩ := instant_of_seen hc h'
  obtain ⟨s₀, hs₀, hguard⟩ := h₀.custody
  obtain ⟨choice, w, hp⟩ := h₀.performed
  cases perform_sign hp
  have hdrawn := drawn_of_issuable (session_sound hc hs) h
  have hdrawn₀ := drawn_of_issuable (session_sound h₀.reachable hs₀) hguard
  by_cases hne : tid = tid'
  · subst hne
    have hissued := issued_of_seen hs h'
    rw [h.1] at hissued
    cases hissued
  · obtain ⟨s', hs'⟩ := session_of_seen hc h'
    intro heq
    refine drawn_disjoint hc hne hs hs' _ hdrawn ?_
    rw [← heq]
    exact drawn_of_seen hs' (h₀.seen.mem (drawn_seen hs₀ hdrawn₀))

/-- A credential that was signed is that of a row. -/
theorem row_of_credential (hinit : ∀ w, D.initial w → w.authorizations = [])
    (hc : Reachable (machine R) D c) {claims : AuthorizationClaims}
    (hclaims : claims ∈ c.world.authorizations) :
    ∃ row ∈ c.world.transactions, CredentialOf row claims := by
  obtain ⟨tid, answer, hseen⟩ := authorizations_register.origin hinit hc hclaims
  exact row_of_signed hc hseen

/-- No payment has two credentials. -/
theorem one_credential (hinit : ∀ w, D.initial w → w.authorizations = [])
    (hc : Reachable (machine R) D c) :
    (c.world.authorizations.map AuthorizationClaims.paymentAuthorizationId).Nodup := by
  refine Reachable.invariant custody Job.session (job_follows R)
    (I := fun c => (c.world.authorizations.map
      AuthorizationClaims.paymentAuthorizationId).Nodup) ?_ ?_ ?_ ?_ hc
  · intro w hw
    rw [hinit w hw]
    exact List.nodup_nil
  · exact fun _ _ _ ih _ _ => ih
  · intro c env _ ih _
    change ((c.world.environment env).authorizations.map _).Nodup
    rwa [authorizations_register.environment]
  · intro c tid s job op next o w answer hc ih ht hp heq
    change (w.authorizations.map _).Nodup
    by_cases hop : ∃ claims, op = .signAuthorization claims
    · obtain ⟨claims, rfl⟩ := hop
      cases perform_sign hp.perform
      rw [(World.perform_ok hp.perform).1]
      change ((claims :: c.world.authorizations).map _).Nodup
      rw [List.map_cons, List.nodup_cons]
      refine ⟨fun hmem => ?_, ih⟩
      -- the thread that signs has drawn the id itself and signed nothing before
      obtain ⟨claims', hclaims', hid⟩ := List.mem_map.1 hmem
      obtain ⟨tid', answer, hseen⟩ := authorizations_register.origin hinit hc hclaims'
      exact signed_apart hc hp.session hp.guard hseen hid
    · have hsame : w.authorizations = c.world.authorizations := by
        rcases World.perform_world hp.perform with rfl | rfl
        · cases op
          case signAuthorization claims => exact absurd ⟨claims, rfl⟩ hop
          all_goals
            simp only [World.apply, World.updateRow]
            try split <;> rfl
        · rfl
      rwa [hsame]

/-- **Every payment credential is that of an allowed row, and no payment has two.** -/
theorem credentials_match_rows (hinit : ∀ w, D.initial w → w.authorizations = [])
    (hc : Reachable (machine R) D c) :
    (∀ claims ∈ c.world.authorizations, ∃ row ∈ c.world.transactions, CredentialOf row claims) ∧
    (c.world.authorizations.map AuthorizationClaims.paymentAuthorizationId).Nodup :=
  ⟨fun _ hclaims => row_of_credential hinit hc hclaims, one_credential hinit hc⟩

/-! ## Approvals -/

/-- The request displays the row that was parked. -/
structure Displays (key : String) (request : ApprovalRequest) (row : Transaction) : Prop where
  key : key = approvalKey row.paymentAuthorizationId
  parked : row.decision = .requireApproval
  userId : request.userId = row.userId
  merchantId : request.merchantId = row.merchantId
  currency : request.currency = row.currency
  cartHash : request.cartHash = row.cartHash
  amount : ∃ amount : Decimal, request.amount = amount.str ∧ row.amount = hundredths amount
  reasonCodes : request.reasonCodes = row.reasonCodes

/-- A row on record, as it was inserted, that the request displays. -/
def Shown (c : Config) (key : String) (request : ApprovalRequest) : Prop :=
  ∃ row ∈ c.world.transactions.map Transaction.asInserted, Displays key request row

theorem Shown.leads {key : String} {request : ApprovalRequest} (h : Shown c key request)
    (hleads : Leads (machine R) D c c') : Shown c' key request := by
  obtain ⟨row, hrow, hdisplays⟩ := h
  exact ⟨row, Leads.persists (row_persists R row) hleads hrow, hdisplays⟩

/-- A stored request was stored by an operation. -/
theorem stored_request (hinit : ∀ w, D.initial w → w.kv = []) (hc : Reachable (machine R) D c)
    {key : String} {request : ApprovalRequest}
    (h : c.world.lookup key = some (.approvalRequest request)) :
    ∃ tid ex answer, ⟨.set key (.approvalRequest request) ex, answer⟩ ∈ seenBy tid c.log := by
  have hcause : ∃ ev ∈ c.log, ∃ ex, ev.op = .set key (.approvalRequest request) ex := by
    refine hc.cause (P := fun w => ∃ expires, w.kv.lookup key =
      some ⟨.approvalRequest request, expires⟩) ?_ ?_ ?_ ?_
    · rintro w hw ⟨expires, h⟩
      rw [hinit w hw] at h
      cases h
    · exact fun w env ⟨expires, h⟩ => ⟨expires, World.lookup_environment h⟩
    · rintro w tid op choice w' answer hp ⟨expires, h⟩
      rcases World.perform_world hp with rfl | rfl
      · rcases World.lookup_apply h with h | ⟨ex, rfl⟩ | ⟨token, htoken⟩
        · exact .inl ⟨expires, h⟩
        · exact .inr ⟨ex, rfl⟩
        · cases htoken
      · exact .inl ⟨expires, h⟩
    · obtain ⟨⟨value, expires⟩, hentry, hvalue⟩ := Option.bind_eq_some_iff.1 h
      split at hvalue
      · cases hvalue
        exact ⟨expires, hentry⟩
      · cases hvalue
  obtain ⟨⟨tid, op, choice, answer⟩, hev, ex, hop⟩ := hcause
  subst hop
  exact ⟨tid, ex, answer, mem_seenBy.2 ⟨_, hev, rfl, rfl⟩⟩

/-- A request that was read was stored before it was read. -/
theorem stored_of_read (hinit : ∀ w, D.initial w → w.kv = []) (hc : Reachable (machine R) D c)
    {tid : ℕ} {key : String} {request : ApprovalRequest}
    (h : ⟨.get key, .ok (some (.approvalRequest request))⟩ ∈ seenBy tid c.log) :
    ∃ c₀, Reachable (machine R) D c₀ ∧ Leads (machine R) D c₀ c ∧ c₀.log.length < c.log.length ∧
      ∃ tid ex answer, ⟨.set key (.approvalRequest request) ex, answer⟩ ∈ seenBy tid c₀.log := by
  obtain ⟨c₀, h₀⟩ := instant_of_seen hc h
  obtain ⟨choice, w, hp⟩ := h₀.performed
  obtain ⟨-, hanswer⟩ := World.perform_ok hp
  have hlookup : c₀.world.lookup key = some (.approvalRequest request) := by
    cases choice <;> simp only [World.answer, World.value, Option.some.injEq, Except.ok.injEq,
      reduceCtorEq] at hanswer
    exact hanswer
  exact ⟨c₀, h₀.reachable, h₀.leads, h₀.shorter, stored_request hinit h₀.reachable hlookup⟩

/-- Every request that was stored displays a parked row. A grant stores again what it read, and that
was stored earlier. -/
theorem shown_of_stored (hinit : ∀ w, D.initial w → w.kv = []) {n : ℕ}
    (hc : Reachable (machine R) D c) (hn : c.log.length ≤ n) {tid ex : ℕ} {key : String}
    {request : ApprovalRequest} {answer : Except Exn Unit}
    (h : ⟨.set key (.approvalRequest request) ex, answer⟩ ∈ seenBy tid c.log) :
    Shown c key request := by
  induction n generalizing c tid key request ex answer with
  | zero =>
      obtain ⟨c₀, h₀⟩ := instant_of_seen hc h
      exact absurd h₀.shorter (by omega)
  | succ n ih =>
      obtain ⟨c₀, h₀⟩ := instant_of_seen hc h
      refine Shown.leads ?_ h₀.leads
      rcases h₀.grounded with ⟨txn, verdict, rfl, ⟨risk, createdAt, hinsert⟩, hparked, rfl⟩ |
        ⟨stored, hread, rfl⟩
      · exact ⟨_, row_entered h₀.reachable hinsert, rfl, hparked, rfl, rfl, rfl, rfl,
          ⟨txn.amount, rfl, rfl⟩, rfl⟩
      · obtain ⟨c₁, hc₁, hleads, hshorter, tid', ex', answer', hstored⟩ :=
          stored_of_read hinit h₀.reachable hread
        have := h₀.shorter
        obtain ⟨row, hrow, hdisplays⟩ := (ih hc₁ (by omega) hstored).leads hleads
        exact ⟨row, hrow, hdisplays.key, hdisplays.parked, hdisplays.userId, hdisplays.merchantId,
          hdisplays.currency, hdisplays.cartHash, hdisplays.amount, hdisplays.reasonCodes⟩

/-- The approval is bound to the row that was parked. -/
structure ApprovalOf (row : Transaction) (claims : ApprovalClaims) : Prop where
  id : row.paymentAuthorizationId = claims.approvalRequestId
  parked : row.decision = .requireApproval
  userId : row.userId = claims.sub
  merchantId : row.merchantId = claims.boundMerchantId
  currency : row.currency = claims.boundCurrency
  cartHash : row.cartHash = claims.boundCartHash
  amount : ∃ amount : Decimal, claims.boundAmount = amount.str ∧ row.amount = hundredths amount

theorem approvalKey_injective {a b : ℕ} (h : approvalKey a = approvalKey b) : a = b :=
  Nat.repr_injective ((String.append_right_inj "agentpay:approval:ar_").1 h)

/-- **Every approval is that of a row that was parked, and is bound to what the row says.** -/
theorem approvals_match_parked_rows
    (hinit : ∀ w, D.initial w → w.kv = [] ∧ w.approvals = []) (hc : Reachable (machine R) D c) :
    ∀ claims ∈ c.world.approvals, ∃ row ∈ c.world.transactions, ApprovalOf row claims := by
  intro claims hclaims
  obtain ⟨tid, answer, hseen⟩ :=
    approvals_register.origin (fun w hw => (hinit w hw).2) hc hclaims
  obtain ⟨c₀, h₀⟩ := instant_of_seen hc hseen
  obtain ⟨request, id, jti, now, hread, happroval⟩ := h₀.grounded
  have hkv : ∀ w, D.initial w → w.kv = [] := fun w hw => (hinit w hw).1
  obtain ⟨c₁, hc₁, hleads, -, tid', ex, answer', hstored⟩ := stored_of_read hkv h₀.reachable hread
  obtain ⟨row, hrow, hdisplays⟩ :=
    (shown_of_stored hkv hc₁ le_rfl hstored).leads (hleads.trans h₀.leads)
  obtain ⟨r, hr, rfl⟩ := List.mem_map.1 hrow
  obtain ⟨shown, hshown, hamount⟩ := hdisplays.amount
  obtain ⟨amount, hparse, rfl⟩ := Option.map_eq_some_iff.1 happroval
  rw [hshown, Decimal.parse_str] at hparse
  cases hparse
  exact ⟨r, hr, (approvalKey_injective hdisplays.key).symm, hdisplays.parked, hdisplays.userId.symm,
    hdisplays.merchantId.symm, hdisplays.currency.symm, hdisplays.cartHash.symm, shown, rfl,
    hamount⟩

end Runs

/-! ## Runs with a credential and with an approval -/

theorem credentials_match_rows_allowed : ∃ c : Config,
    c.world.authorizations.map AuthorizationClaims.paymentAuthorizationId = [0] ∧
    (∀ claims ∈ c.world.authorizations, ∃ row ∈ c.world.transactions, CredentialOf row claims) ∧
    (c.world.authorizations.map AuthorizationClaims.paymentAuthorizationId).Nodup := by
  have hrun : executes Scenario.runtime {} (Scenario.world (Scenario.policy "u" 200 10))
      ([Scenario.request Scenario.firstOrder false] ++ steps 0 (Scenario.toInsertion ++ oks 28))
      (fun c => c.world.authorizations.map AuthorizationClaims.paymentAuthorizationId = [0]) =
      true := by decide +kernel
  obtain ⟨c, hc, hsigned⟩ := exists_reachable_checked fromScratch_checked (untouched_world _) hrun
  exact ⟨c, hsigned, credentials_match_rows (fun _ (h : Untouched _) => h.authorizations) hc⟩

theorem approvals_match_parked_rows_granted : ∃ c : Config,
    c.world.approvals.map ApprovalClaims.approvalRequestId = [0] ∧
    ∀ claims ∈ c.world.approvals, ∃ row ∈ c.world.transactions, ApprovalOf row claims := by
  have hrun : executes Scenario.runtime {} (Scenario.world parkingPolicy) parkedAndGranted
      (fun c => c.world.approvals.map ApprovalClaims.approvalRequestId = [0]) = true := by
    decide +kernel
  obtain ⟨c, hc, hgranted⟩ := exists_reachable_checked fromScratch_checked (untouched_world _) hrun
  exact ⟨c, hgranted,
    approvals_match_parked_rows (fun _ (h : Untouched _) => ⟨h.kv, h.approvals⟩) hc⟩

end AgentPay.Properties
