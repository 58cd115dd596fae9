import AgentPay.Gateway.Store

/-!
# The deterministic facts

`loadContext` reads the bound policy, the registries, the settled spend of the last day and the
request velocity of the last hour, one query after the other.
-/

set_option autoImplicit false

namespace AgentPay.Gateway

open AgentPay.Library

/-- The store key of the velocity window of a user and an agent. -/
def velocityKey (userId agentId : String) : String :=
  "agentpay:velocity:" ++ userId ++ ":" ++ agentId

/-- The window of the velocity count in seconds. -/
def velocityWindow : ℕ := 3600

/-- The seconds of a day. -/
def daySeconds : ℕ := 86400

/-- The policy fields of a context, when the policy is bound to the user. -/
def PolicyContext.withPolicy (ctx : PolicyContext) (txn : CanonicalTransaction) :
    Option SpendingPolicy → PolicyContext
  | some policy =>
      if policy.userId = txn.userId then { ctx with
        policyFound := true
        policyVersion := policy.policyVersion
        perTransactionLimit := .ofHundredths policy.perTransactionLimit
        dailyLimit := .ofHundredths policy.dailyLimit
        policyCurrency := policy.currency
        allowedMerchants := policy.allowedMerchants
        blockedMerchants := policy.blockedMerchants
        requireVerifiedMerchant := policy.requireVerifiedMerchant
        approvalThreshold := .ofHundredths policy.approvalThreshold
        maxTransactionsPerHour := policy.maxTransactionsPerHour
        policyRevoked := policy.revoked }
      else ctx
  | none => ctx

/-- The registry facts about the merchant. -/
def PolicyContext.withMerchant (ctx : PolicyContext) : Option Merchant → PolicyContext
  | some merchant => { ctx with
      merchantKnown := true
      merchantVerified := merchant.verified
      merchantCategory := merchant.category
      merchantRegistryRisk := merchant.riskScore }
  | none => ctx

/-- The registry facts about the agent. -/
def PolicyContext.withAgent (ctx : PolicyContext) : Option AgentRegistration → PolicyContext
  | some agent => { ctx with
      agentRegistered := true
      agentActive := agent.active
      agentAllowedCategories := agent.allowedMerchantCategories }
  | none => ctx

/-- The decimal of a summed column; a sum of zero is the literal zero. -/
def spentDecimal (spent : ℤ) : Decimal := if spent = 0 then .ofNat 0 else .ofHundredths spent

/-- The context of what was read. -/
def contextOf (txn : CanonicalTransaction) (policy : Option SpendingPolicy)
    (merchant : Option Merchant) (agent : Option AgentRegistration) (spent : ℤ) (count : ℕ) :
    PolicyContext :=
  { ((({} : PolicyContext).withPolicy txn policy).withMerchant merchant).withAgent agent with
    spentToday := spentDecimal spent
    transactionsLastHour := count }

/-- `load_context`. -/
def loadContext (txn : CanonicalTransaction) : Py PolicyContext := do
  let policy ← perform (.getPolicy txn.delegationId)
  let merchant ← perform (.getMerchant txn.merchantId)
  let agent ← perform (.getAgent txn.agentId)
  let now ← perform .now
  let spent ← perform (.sumSettled txn.userId (now - seconds daySeconds))
  let count ← zcountWindow (velocityKey txn.userId txn.agentId) velocityWindow
  pure (contextOf txn policy merchant agent spent count)

/-- `record_velocity`. -/
def recordVelocity (txn : CanonicalTransaction) : Py ℕ :=
  zaddWindow (velocityKey txn.userId txn.agentId) velocityWindow

end AgentPay.Gateway
