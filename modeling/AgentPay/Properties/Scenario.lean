import AgentPay.Gateway.Ledger

/-!
# Closed schedules

A schedule that executes reaches a configuration of the machine, so a decidable property of its last
configuration is a property of a run (`exists_reachable`). The definitions are the parts such
schedules are made of: one merchant, one agent and one policy over a limit of one unit per
transaction and per day, and orders of one item for one unit. Every ratio the risk engine raises to
a power is zero or one there, and its scores are whole numbers. The digest is the text itself.
-/

set_option autoImplicit false

namespace AgentPay.Properties

open AgentPay.Library AgentPay.Library.Machine AgentPay.Gateway

/-- Executes a schedule under checks, and checks a decidable property of its last configuration. -/
def executes (R : Runtime) (checks : Checks) (w : World) (schedule : List (Label Job Env Outcome))
    (p : Config → Prop) [DecidablePred p] : Bool :=
  ((machine R).run checks { world := w } schedule).any fun c => decide (p c)

/-- An executed schedule is a run. -/
theorem exists_reachable {R : Runtime} {w : World} {schedule : List (Label Job Env Outcome)}
    {p : Config → Prop} [DecidablePred p] (h : executes R {} w schedule p = true) :
    ∃ c : Config, Reachable (machine R) {} c ∧ p c :=
  Reachable.exists_of_run ⟨fun _ _ => trivial, fun _ _ _ => trivial, fun _ _ _ => trivial⟩ trivial h

/-- A schedule executed under checks is a run of the discipline they amount to. -/
theorem exists_reachable_checked {R : Runtime} {D : Discipline} {checks : Checks}
    (hD : D.Checked checks) {w : World} (hw : D.initial w)
    {schedule : List (Label Job Env Outcome)} {p : Config → Prop} [DecidablePred p]
    (h : executes R checks w schedule p = true) : ∃ c : Config, Reachable (machine R) D c ∧ p c :=
  Reachable.exists_of_run hD hw h

/-- Steps of one thread under given outcomes. -/
def steps (tid : ℕ) (outcomes : List Outcome) : List (Label Job Env Outcome) :=
  outcomes.map (.run tid)

/-- Operations that complete. -/
def oks (n : ℕ) : List Outcome := List.replicate n .ok

namespace Scenario

def runtime : Runtime where
  settings := { edgeRateLimitEnabled := false }
  sha256 := id
  floatRepr q := toString q.num ++ ".0"
  isoTime t := toString t
  jsonStr _ := ""
  power15 := id

/-- One unit of money. -/
def unit : Money where
  amount := .ofNat 1
  positive := by rw [Decimal.toRat_ofNat]; norm_num
  twoPlaces := ⟨100, by rw [Decimal.toRat_ofNat]; norm_num⟩
  wholeDigits := by rw [Decimal.toRat_ofNat]; norm_num

theorem usd_pattern : "USD".length = 3 ∧ ∀ c ∈ "USD".toList, 'A' ≤ c ∧ c ≤ 'Z' := by
  refine ⟨rfl, fun c hc => ?_⟩
  rw [show "USD".toList = ['U', 'S', 'D'] by simp] at hc
  simp only [List.mem_cons, List.not_mem_nil, or_false] at hc
  rcases hc with rfl | rfl | rfl <;> decide

/-- An order of one item for one unit. -/
def order (userId idempotencyKey sku : String) (approvalToken : Option ApprovalToken)
    (huser : 1 ≤ userId.length ∧ userId.length ≤ 128 := by decide)
    (hkey : 8 ≤ idempotencyKey.length ∧ idempotencyKey.length ≤ 128 := by decide)
    (hsku : 1 ≤ sku.length ∧ sku.length ≤ 128 := by decide) : PaymentIntent where
  idempotencyKey := idempotencyKey
  agentId := "a"
  userId := userId
  delegationId := "d"
  merchantId := "m"
  merchantVerified := true
  amount := unit
  currency := "USD"
  items := [⟨sku, "n", 1, unit, hsku, by decide, by decide⟩]
  purpose := ""
  merchantContent := ⟨.officialApi, "", "", by decide, by decide⟩
  toolArguments := []
  approvalToken := approvalToken
  idempotencyKey_length := hkey
  agentId_length := by decide
  userId_length := huser
  delegationId_length := by decide
  merchantId_length := by decide
  currency_pattern := usd_pattern
  items_length := ⟨Nat.le_refl 1, by simp⟩
  purpose_length := by decide

/-! The bounds of the texts that several modules build orders from, and of the amounts of their
policies. -/

theorem user_length : 1 ≤ "u".length ∧ "u".length ≤ 128 := by decide

theorem secondKey_length : 8 ≤ "key-0002".length ∧ "key-0002".length ≤ 128 := by decide

theorem sku_length : 1 ≤ "s".length ∧ "s".length ≤ 128 := by decide

theorem threshold_fits : 200 < 10 ^ 12 := by decide

theorem threeUnits_fit : FitsNumeric 300 := by
  unfold FitsNumeric
  decide

/-- An order of the user `u`. -/
def firstOrder : PaymentIntent := order "u" "key-0001" "s" none

/-- Another order of the user `u`. -/
def secondOrder : PaymentIntent := order "u" "key-0002" "t" none

/-- A delegation token of a user. -/
def credential (userId : String) : Credential :=
  .signed ⟨userId, some "a", some "d", ["payments:authorize"], 2000000⟩

/-- The arrival of a request. -/
def request (intent : PaymentIntent) (execute : Bool) : Label Job Env Outcome :=
  .spawn (.paymentIntent intent (credential intent.userId) execute)

/-- A policy of a user over one unit per transaction and per day, with given threshold for review
and number of transactions an hour. -/
def policy (userId : String) (approvalThreshold : ℕ) (maxTransactionsPerHour : ℤ)
    (hfits : approvalThreshold < 10 ^ 12 := by decide) : SpendingPolicy where
  delegationId := "d"
  userId := userId
  agentId := "a"
  policyVersion := "v1"
  perTransactionLimit := 100
  dailyLimit := 100
  currency := "USD"
  allowedMerchants := []
  blockedMerchants := []
  requireVerifiedMerchant := true
  approvalThreshold := approvalThreshold
  maxTransactionsPerHour := maxTransactionsPerHour
  revoked := false
  perTransactionLimit_fits := by unfold FitsNumeric; decide
  dailyLimit_fits := by unfold FitsNumeric; decide
  approvalThreshold_fits := by unfold FitsNumeric; rwa [Int.natAbs_natCast]

/-- The world with one policy. -/
def world (p : SpendingPolicy) : World where
  clock := seconds 1000000
  policies := [p]
  merchants := [⟨"m", "c", true, 0⟩]
  agents := [⟨"a", p.userId, ["payments:authorize"], [], true⟩]

/-- The content analysis finds nothing. -/
def clean : Outcome := .analysis { injectionConfidence := 0 }

/-- The provider confirms a charge. -/
def confirmed : Outcome := .reply {
  statusCode := 200
  text := ""
  json := some (.obj [("status", .str "confirmed"), ("provider_reference", .str "r")]) }

/-- A request up to the insertion of its row. -/
def toInsertion : List Outcome := oks 10 ++ [clean] ++ oks 11

/-- A payment of the user `u`. -/
def payment : CanonicalTransaction where
  paymentAuthorizationId := 1
  idempotencyKey := "key-0001"
  payloadHash := "p"
  fingerprint := "f"
  userId := "u"
  agentId := "a"
  delegationId := "d"
  agentScopes := ["payments:authorize"]
  merchantId := "m"
  merchantVerifiedClaim := false
  amount := .ofNat 1
  currency := "USD"
  cartHash := "c"
  itemCount := 1
  untrusted := ⟨"", .unknown, "", "", ""⟩
  approvalToken := none

/-- The row of a payment like it, in a state. -/
def paymentRow (id : ℕ) (state : PaymentState) (createdAt : Time) : Transaction where
  paymentAuthorizationId := id
  idempotencyKey := payment.idempotencyKey
  payloadHash := payment.payloadHash
  fingerprint := payment.fingerprint
  userId := payment.userId
  agentId := payment.agentId
  delegationId := payment.delegationId
  merchantId := payment.merchantId
  amount := 100
  currency := payment.currency
  cartHash := payment.cartHash
  decision := .allow
  reasonCodes := []
  state := state
  risk := ⟨{}, 0, "v1"⟩
  policyVersion := "v1"
  createdAt := createdAt

/-- The credential of the payment. -/
def paymentToken : IssuedToken := ⟨⟨"u", 9, 0, 300, 1, "a", "m", "1", "USD", "c", "v1"⟩, 9, 300⟩

end Scenario

end AgentPay.Properties
