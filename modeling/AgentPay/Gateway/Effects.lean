import AgentPay.Gateway.Models
import AgentPay.Gateway.Pdp
import AgentPay.Library.Interleaving

/-!
# Exceptions and operations

The exceptions the gateway distinguishes, and the operations its handlers suspend at: reading the
clock and drawing identifiers, commands of the shared store, database transactions, the content
analyzer, the policy engine, signing, and the messages to and from the payment provider. A database
transaction that reads and later writes a row is two operations, since another transaction may
commit in between.
-/

set_option autoImplicit false

namespace AgentPay.Gateway

open AgentPay.Library AgentPay.Policies

/-- Exceptions. `cancelled` is the cancellation of a task, which is not an `Exception`. -/
inductive Exn where
  | timeoutError
  | httpTimeout (detail : String)
  | httpTransport (detail : String)
  | httpError (kind : String)
  | integrityError
  | dataError
  | invalidTransition (current target : PaymentState)
  | keyError
  | valueError
  | attributeError
  | typeError
  | identityError (reasonCode message : String)
  | rateLimitError (scope : String) (limit : ℤ)
  | other
  | cancelled
deriving DecidableEq

/-- Caught by `except Exception`. -/
def Exn.isException : Exn → Bool
  | .cancelled => false
  | _ => true

/-- Caught by `except httpx.HTTPError`. -/
def Exn.isHttpError : Exn → Bool
  | .httpTimeout _ | .httpTransport _ | .httpError _ => true
  | _ => false

/-- The detail of a request that did not complete, when the exception is one of
`httpx.TimeoutException` and `httpx.TransportError`. -/
def Exn.transportDetail? : Exn → Option String
  | .httpTimeout detail | .httpTransport detail => some detail
  | _ => none

/-- What a human is asked to approve. -/
structure ApprovalRequest where
  approvalRequestId : ℕ
  userId : String
  merchantId : String
  amount : String
  currency : String
  cartHash : String
  reasonCodes : List String
  paymentAuthorizationId : ℕ
  granted : Bool := false
deriving DecidableEq

/-- The values of the shared store, one constructor for each family of keys. -/
inductive Stored where
  | lockToken (token : ℕ)
  | paymentAuthorizationId (id : ℕ)
  | idempotencyRecord (payloadHash : String) (response : DecisionResponse)
  | approvalRequest (request : ApprovalRequest)
deriving DecidableEq

/-- A response of the payment provider; `json` is its parsed body, `none` when it does not parse. -/
structure ProviderReply where
  statusCode : ℕ
  text : String
  json : Option Json

/-- The body of a charge. -/
structure ChargeRequest where
  paymentAuthorizationId : ℕ
  idempotencyKey : String
  amount : String
  currency : String
  merchantId : String
  cartHash : String
deriving DecidableEq

/-- The operations. -/
inductive Op where
  | now
  | uuid4
  | sleep
  | get (key : String)
  | set (key : String) (value : Stored) (ex : ℕ)
  | setNx (key : String) (token : ℕ) (ex : ℕ)
  | deleteIfValue (key : String) (token : ℕ)
  | isRevoked (delegationId : String)
  | zcount (key : String) (since : Time)
  | zadd (key : String) (window : ℕ) (now : Time) (member : ℕ)
  | getPolicy (delegationId : String)
  | getMerchant (merchantId : String)
  | getAgent (agentId : String)
  | sumSettled (userId : String) (since : Time)
  | insertTransaction (row : Transaction)
  | getTransaction (paymentAuthorizationId : ℕ)
  | commitToken (paymentAuthorizationId : ℕ) (jti : ℕ) (expiresAt : Time)
  | commitUses (paymentAuthorizationId : ℕ) (uses : ℕ)
  | commitState (paymentAuthorizationId : ℕ) (target : PaymentState)
      (providerReference : Option Json) (detail : Option String)
  | selectUnknown (cutoff : Time)
  | selectStale (now : Time)
  | auditHead
  | insertAudit (event : AuditEvent)
  | analyze (txn : CanonicalTransaction)
  | evaluatePolicy (input : PolicyInput)
  | signAuthorization (claims : AuthorizationClaims)
  | signApproval (claims : ApprovalClaims)
  | verifyApproval (claims : ApprovalClaims)
  | sendCharge (token : AuthorizationClaims) (body : ChargeRequest)
  | awaitCharge (paymentAuthorizationId : ℕ)
  | sendQuery (paymentAuthorizationId : ℕ)
  | awaitQuery (paymentAuthorizationId : ℕ)

/-- The values the operations answer with. -/
abbrev Op.Val : Op → Type
  | now => Time
  | uuid4 => ℕ
  | get _ => Option Stored
  | setNx .. | deleteIfValue .. | isRevoked _ | verifyApproval _ => Bool
  | zcount .. | zadd .. => ℕ
  | getPolicy _ => Option SpendingPolicy
  | getMerchant _ => Option Merchant
  | getAgent _ => Option AgentRegistration
  | sumSettled .. => ℤ
  | getTransaction _ => Option Transaction
  | selectUnknown _ => List (ℕ × String)
  | selectStale _ => List ℕ
  | auditHead => Option String
  | analyze _ => AnalysisResult
  | evaluatePolicy _ => OpaAnswer
  | awaitCharge _ | awaitQuery _ => ProviderReply
  | sleep | set .. | insertTransaction _ | commitToken .. | commitUses .. | commitState ..
  | insertAudit _ | signAuthorization _ | signApproval _ | sendCharge .. | sendQuery _ => Unit

/-- The operations that compute in the process and never suspend. -/
def Op.isLocal : Op → Bool
  | now | uuid4 | signAuthorization _ | signApproval _ | verifyApproval _ => true
  | _ => false

/-- A coroutine of the gateway. -/
abbrev Py (α : Type) := Prog Op Op.Val Exn α

/-- Suspension at an operation. -/
abbrev perform (op : Op) : Py op.Val := Prog.perform op

end AgentPay.Gateway
