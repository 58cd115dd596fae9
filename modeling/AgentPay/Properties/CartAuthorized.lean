import AgentPay.Properties.Slots

/-!
# One authorization for a cart

Requests for one cart under different idempotency keys share the slot of their fingerprint. At most
one of them is issued a credential in a run that keeps the slots (`cart_authorized_once`). A request
that fails after its credential was issued leaves the slot free, and the next one is issued another
(`cart_authorized_twice`).
-/

set_option autoImplicit false

namespace AgentPay.Properties

open AgentPay.Library AgentPay.Library.Machine AgentPay.Gateway

/-- The lookups are for one cart, under different idempotency keys. -/
def sameCart (x y : SlotLookup) : Prop :=
  x.fingerprint = y.fingerprint ∧ x.intent.idempotencyKey ≠ y.intent.idempotencyKey

/-- The request was issued a credential. -/
def tokenIssued (_ : RequestThread) (s : Session) : Bool := s.issued.isSome

/-- Of two requests with one fingerprint and different idempotency keys, one has no credential. -/
def CartAuthorizedOnce (c : Config) : Prop :=
  ∀ t t' s s' txn txn', t ≠ t' → sessionOf c t = some s → sessionOf c t' = some s' →
    s.txn = some txn → s'.txn = some txn' → txn.fingerprint = txn'.fingerprint →
    txn.idempotencyKey ≠ txn'.idempotencyKey → s.issued.isSome = true → s'.issued = none

/-- In a run that keeps the slots a cart is authorized once. -/
theorem cart_authorized_once (R : Runtime) (c : Config)
    (hc : Reachable (machine R) (slotsKept sameCart tokenIssued) c) : CartAuthorizedOnce c := by
  intro t t' s s' txn txn' hne hs hs' htxn htxn' hfingerprint hkeys hissued
  by_contra hissued'
  replace hissued' := Option.isSome_iff_ne_none.2 hissued'
  obtain ⟨txn₁, intent, htxn₁, hcanonical, hfree⟩ := foundFree_of_issued hc hs hissued
  obtain ⟨txn₂, intent', htxn₂, hcanonical', hfree'⟩ := foundFree_of_issued hc hs' hissued'
  cases htxn₁.symm.trans htxn
  cases htxn₂.symm.trans htxn'
  have hwins : ∀ {t s}, sessionOf c t = some s → s.issued.isSome = true →
      StillStands tokenIssued c t := by
    intro t s hs hissued
    obtain ⟨thread, hthread, -⟩ := Option.map_eq_some_iff.1 hs
    exact .inr ⟨thread, s, hthread, hs, hissued⟩
  have hsymm : ∀ x y, sameCart x y → sameCart y x := fun _ _ h => ⟨h.1.symm, h.2.symm⟩
  have hrival : sameCart ⟨intent, txn.fingerprint⟩ ⟨intent', txn'.fingerprint⟩ := by
    refine ⟨hfingerprint, ?_⟩
    rw [← hcanonical.idempotencyKey, ← hcanonical'.idempotencyKey]
    exact hkeys
  exact one_rival_stands hsymm hc t t' _ _ hne hrival hfree hfree' (hwins hs hissued)
    (hwins hs' hissued')

/-! ## Two runs -/

/-- The policy of the user `u` over three units a day. -/
def threeUnits : SpendingPolicy :=
  { Scenario.policy "u" 200 10 Scenario.threshold_fits with
    dailyLimit := 300
    dailyLimit_fits := Scenario.threeUnits_fit }

/-- The order of the user `u` under another key. -/
def sameOrder : PaymentIntent :=
  Scenario.order "u" "key-0002" "s" none Scenario.user_length Scenario.secondKey_length
    Scenario.sku_length

/-- Checks that two requests with one fingerprint and different keys were started, and which of them
hold a credential. -/
def credentials (first second : Bool) (c : Config) : Bool :=
  (sessionOf c 0).any fun s => (sessionOf c 1).any fun s' => s.txn.any fun txn => s'.txn.any fun txn' =>
    decide (txn.fingerprint = txn'.fingerprint ∧ txn.idempotencyKey ≠ txn'.idempotencyKey ∧
      s.issued.isSome = first ∧ s'.issued.isSome = second)

/-- The order is paid, and then sent again under another key. -/
def orderedAgain : List (Label Job Env Outcome) :=
  [Scenario.request Scenario.firstOrder false] ++ steps 0 (Scenario.toInsertion ++ oks 28) ++
    [Scenario.request sameOrder false] ++ steps 1 (oks 10 ++ [Scenario.clean])

theorem cart_authorized_once_again : ∃ c : Config, Reachable (machine Scenario.runtime)
      (slotsKept sameCart tokenIssued) c ∧ credentials true false c = true ∧
    CartAuthorizedOnce c := by
  have hrun : executes Scenario.runtime { run := othersSettled tokenIssued }
      (Scenario.world threeUnits) orderedAgain (fun c => credentials true false c = true) = true := by
    decide +kernel
  obtain ⟨c, hc, hcredentials⟩ :=
    exists_reachable_checked (slotsKept_checked sameCart tokenIssued) trivial hrun
  exact ⟨c, hc, hcredentials, cart_authorized_once _ c hc⟩

/-- The first request fails when it reads its row for the submission, and its locks are released;
the second one follows. -/
def failedAfterIssue : List (Label Job Env Outcome) :=
  [Scenario.request Scenario.firstOrder true] ++ steps 0 (Scenario.toInsertion ++ oks 17) ++
    [.run 0 (.fault .other false)] ++ steps 0 (oks 2) ++
    [Scenario.request sameOrder false] ++ steps 1 (Scenario.toInsertion ++ oks 28)

/-- A cart is authorized twice: every request has ended, and two of them hold a credential. -/
theorem cart_authorized_twice : ∃ c : Config, Reachable (machine Scenario.runtime) {} c ∧
    (∀ t, ¬ Running c t) ∧ ¬ CartAuthorizedOnce c := by
  have hrun : executes Scenario.runtime {} (Scenario.world threeUnits) failedAfterIssue
      (fun c => allEnded c = true ∧ credentials true true c = true) = true := by decide +kernel
  obtain ⟨c, hc, hended, hcredentials⟩ := exists_reachable hrun
  refine ⟨c, hc, not_running_of_allEnded hended, fun h => ?_⟩
  simp only [credentials, Option.any_eq_true, decide_eq_true_eq] at hcredentials
  obtain ⟨s, hs, s', hs', txn, htxn, txn', htxn', hfingerprint, hkeys, hissued, hissued'⟩ :=
    hcredentials
  have hnone := h 0 1 s s' txn txn' (by decide) hs hs' htxn htxn' hfingerprint hkeys hissued
  rw [hnone] at hissued'
  cases hissued'

end AgentPay.Properties
