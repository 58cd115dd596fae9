import AgentPay.Gateway.Effects
import AgentPay.Library.PyValue

/-!
# The reading of the policy engine's reply

`evaluate` from the bytes of the reply on: the exceptions it catches around the request, and the
conversions it applies to whatever the body turns out to be. For the replies the policy itself gives,
this is `readAnswer`.
-/

set_option autoImplicit false

namespace AgentPay.Gateway

open AgentPay.Library AgentPay.Policies

/-- What `json.loads` raises: a `ValueError`, or a `RecursionError` when the nesting is too deep. -/
inductive LoadsError where
  | invalid
  | tooDeep
deriving DecidableEq

/-- The functions of the platform the client reads a body with: the parser of a body, the text of a
parsed value and the reading of a float from a text. -/
structure Parsing where
  loads : List UInt8 → Except LoadsError PyValue
  str : PyValue → String
  parseFloat : String → Option PyFloat

/-- How the request to the policy engine ended: an `httpx.HTTPError`, by its class, or a response. -/
inductive OpaCall where
  | failed (kind : String)
  | answered (statusCode : ℕ) (content : List UInt8)

/-- A `PDPResult` as `evaluate` builds it, the items of its lists unchecked. -/
structure RawResult where
  decision : Decision
  reasonCodes : List PyValue
  policyVersion : String
  weightedScore : PyFloat := .finite 0
  denyReasons : List PyValue := []
  approvalReasons : List PyValue := []
  pdpAvailable : Bool := true

/-- A list of texts as parsed values. -/
def pyStrings (l : List String) : List PyValue := l.map .str

/-- A result whose items are texts. -/
def PDPResult.raw (r : PDPResult) : RawResult where
  decision := r.decision
  reasonCodes := pyStrings r.reasonCodes
  policyVersion := r.policyVersion
  weightedScore := .finite r.weightedScore
  denyReasons := pyStrings r.denyReasons
  approvalReasons := pyStrings r.approvalReasons
  pdpAvailable := r.pdpAvailable

/-- The exception of a conversion. -/
def ConversionError.exn : ConversionError → Exn
  | .typeError => .typeError
  | .valueError => .valueError
  | .overflowError => .other

/-- A conversion as a step of `evaluate`. -/
def converted {α : Type} (r : Except ConversionError α) : Except Exn α :=
  r.mapError ConversionError.exn

/-- `Decision(value)`; only the text of a decision is one. -/
def decisionOf? : PyValue → Option Decision
  | .str s => Decision.ofValue? s
  | _ => none

/-- `str(x or declared)`. -/
def versionOr (P : Parsing) (declared : String) (x : PyValue) : String :=
  if x.truthy then P.str x else declared

/-- The result of a decision that was given. -/
def convertResult (P : Parsing) (declaredVersion : String) (decision : Decision)
    (result : List (String × PyValue)) : Except Exn RawResult := do
  let reasonCodes ← converted (PyValue.get "reason_codes" result).listOr
  let weightedScore ← converted ((PyValue.get "weighted_score" result).floatOr P.parseFloat)
  let denyReasons ← converted (PyValue.get "deny_reasons" result).listOr
  let approvalReasons ← converted (PyValue.get "approval_reasons" result).listOr
  return {
    decision, reasonCodes, weightedScore, denyReasons, approvalReasons
    policyVersion := versionOr P declaredVersion (PyValue.get "policy_version" result) }

/-- The reading of a parsed body. -/
def readBody (P : Parsing) (declaredVersion : String) : PyValue → Except Exn RawResult
  | .dict body =>
      match body.lookup "result" with
      | some (.dict result) =>
          match result.lookup "decision" with
          | some value =>
              match decisionOf? value with
              | some decision => convertResult P declaredVersion decision result
              | none => .ok (unavailable declaredVersion "unknown_decision_value").raw
          | none => .ok (unavailable declaredVersion "undefined_result").raw
      | _ => .ok (unavailable declaredVersion "undefined_result").raw
  -- `body.get` of anything but a dictionary
  | _ => .error .attributeError

/-- `response.is_success`. -/
def isSuccess (statusCode : ℕ) : Bool := decide (200 ≤ statusCode ∧ statusCode ≤ 299)

/-- `evaluate`, from the end of the request on. -/
def evaluate (P : Parsing) (input : PolicyInput) : OpaCall → Except Exn RawResult
  | .failed kind => .ok (unavailable (input.context.policyVersion.getD "unknown") kind).raw
  | .answered statusCode content =>
      let declaredVersion := input.context.policyVersion.getD "unknown"
      if isSuccess statusCode then
        match P.loads content with
        | .ok body => readBody P declaredVersion body
        | .error .invalid => .ok (unavailable declaredVersion "invalid_json").raw
        -- a `RecursionError` is no `ValueError`
        | .error .tooDeep => .error .other
      else .ok (unavailable declaredVersion "HTTPStatusError").raw

/-! ## Replies of the policy -/

/-- The object the policy engine serves for a result of the policy. -/
def resultFields (r : Result) : List (String × PyValue) := [
  ("approval_reasons", .list (pyStrings r.approvalReasons)),
  ("decision", .str r.decision),
  ("deny_reasons", .list (pyStrings r.denyReasons)),
  ("policy_version", .str r.policyVersion),
  ("reason_codes", .list (pyStrings r.reasonCodes)),
  ("weighted_score", .float (.finite r.weightedScore))]

/-- The document the policy engine serves. -/
def document (result : Option Result) : PyValue :=
  .dict (result.elim [] fun r => [("result", .dict (resultFields r))])

/-- The calls that bring an answer of the policy engine. -/
inductive Delivers (P : Parsing) : OpaCall → OpaAnswer → Prop
  | failed (kind : String) : Delivers P (.failed kind) (.httpError kind)
  | refused {statusCode : ℕ} {content : List UInt8} (h : isSuccess statusCode = false) :
      Delivers P (.answered statusCode content) (.httpError "HTTPStatusError")
  | notJson {statusCode : ℕ} {content : List UInt8} (h : isSuccess statusCode = true)
      (hloads : P.loads content = .error .invalid) :
      Delivers P (.answered statusCode content) .notJson
  | body {statusCode : ℕ} {content : List UInt8} {result : Option Result}
      (h : isSuccess statusCode = true) (hloads : P.loads content = .ok (document result)) :
      Delivers P (.answered statusCode content) (.body result)

theorem converted_listOr_pyStrings (l : List String) :
    converted (PyValue.list (pyStrings l)).listOr = .ok (pyStrings l) := by
  rw [PyValue.listOr_list]
  rfl

theorem versionOr_str {P : Parsing} (hstr : ∀ s, P.str (.str s) = s) (declared version : String) :
    versionOr P declared (.str version) = if version = "" then declared else version := by
  by_cases hempty : version = ""
  · rw [hempty]
    rfl
  · rw [versionOr, if_neg hempty, if_pos (by simpa [PyValue.truthy] using hempty), hstr]

/-- The conversions keep a result of the policy. -/
theorem convertResult_resultFields (P : Parsing) (hstr : ∀ s, P.str (.str s) = s)
    (declaredVersion : String) (decision : Decision) (r : Result) :
    convertResult P declaredVersion decision (resultFields r) = .ok {
      decision
      reasonCodes := pyStrings r.reasonCodes
      policyVersion := if r.policyVersion = "" then declaredVersion else r.policyVersion
      weightedScore := .finite r.weightedScore
      denyReasons := pyStrings r.denyReasons
      approvalReasons := pyStrings r.approvalReasons } := by
  have hreasons : PyValue.get "reason_codes" (resultFields r) = .list (pyStrings r.reasonCodes) :=
    rfl
  have hversion : PyValue.get "policy_version" (resultFields r) = .str r.policyVersion := rfl
  have hscore : PyValue.get "weighted_score" (resultFields r) = .float (.finite r.weightedScore) :=
    rfl
  have hdeny : PyValue.get "deny_reasons" (resultFields r) = .list (pyStrings r.denyReasons) := rfl
  have happroval : PyValue.get "approval_reasons" (resultFields r) =
      .list (pyStrings r.approvalReasons) := rfl
  rw [convertResult, hreasons, hversion, hscore, hdeny, happroval, converted_listOr_pyStrings,
    converted_listOr_pyStrings, converted_listOr_pyStrings, PyValue.floatOr_float,
    versionOr_str hstr]
  rfl

/-- The document of a result of the policy is read as `readAnswer` reads the result. -/
theorem readBody_document (P : Parsing) (hstr : ∀ s, P.str (.str s) = s) (input : PolicyInput)
    (result : Option Result) :
    readBody P (input.context.policyVersion.getD "unknown") (document result) =
      .ok (readAnswer input (.body result)).raw := by
  cases result with
  | none => rfl
  | some r =>
      have hdecision : (resultFields r).lookup "decision" = some (.str r.decision) := rfl
      unfold readBody document readAnswer
      simp only [Option.elim_some, List.lookup_cons, beq_self_eq_true, hdecision, decisionOf?]
      cases Decision.ofValue? r.decision with
      | none => rfl
      | some decision => exact convertResult_resultFields P hstr _ decision r

/-- `evaluate` reads every answer the policy engine delivers as `readAnswer` does. -/
theorem evaluate_delivers {P : Parsing} (hstr : ∀ s, P.str (.str s) = s) (input : PolicyInput)
    {call : OpaCall} {answer : OpaAnswer} (h : Delivers P call answer) :
    evaluate P input call = .ok (readAnswer input answer).raw := by
  cases h with
  | failed kind => rfl
  | refused hcode =>
      rw [evaluate, if_neg (by rw [hcode]; exact Bool.false_ne_true)]
      rfl
  | notJson hcode hloads =>
      rw [evaluate, if_pos hcode, hloads]
      rfl
  | body hcode hloads =>
      rw [evaluate, if_pos hcode, hloads]
      exact readBody_document P hstr input _

end AgentPay.Gateway
