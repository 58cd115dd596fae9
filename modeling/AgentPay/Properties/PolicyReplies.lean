import AgentPay.Gateway.PdpClient

/-!
# Replies the policy client survives

For every outcome of the call to the policy engine: whatever `evaluate` returns is the decision of the
engine or a block, and it returns exactly for the replies whose shapes its conversions accept
(`evaluate_total_iff`).
-/

set_option autoImplicit false

namespace AgentPay.Properties

open AgentPay.Library AgentPay.Policies AgentPay.Gateway

variable (P : Parsing)

/-- The decision string of a call that succeeded with a body that is an object whose result is an
object. -/
def opaDecision : OpaCall → Option String
  | .failed _ => none
  | .answered statusCode content =>
      match isSuccess statusCode, P.loads content with
      | true, .ok (.dict body) =>
          match body.lookup "result" with
          | some (.dict result) =>
              match result.lookup "decision" with
              | some (.str decision) => some decision
              | _ => none
          | _ => none
      | _, _ => none

/-- The result of a call is the decision of the policy engine, or the block for want of one. -/
def Closed (call : OpaCall) (r : RawResult) : Prop :=
  opaDecision P call = some r.decision.value ∨
    r.decision = .block ∧ .str "PDP_UNAVAILABLE_FAIL_CLOSED" ∈ r.reasonCodes

/-- `evaluate` returns, and what it returns is closed. -/
def TotalAndClosed (input : PolicyInput) (call : OpaCall) : Prop :=
  ∃ r, evaluate P input call = .ok r ∧ Closed P call r

/-- The conversions accept a result. -/
def convertible (result : List (String × PyValue)) : Bool :=
  !(PyValue.get "reason_codes" result).notIterable &&
    !(PyValue.get "weighted_score" result).notNumeric P.parseFloat &&
    !(PyValue.get "deny_reasons" result).notIterable &&
    !(PyValue.get "approval_reasons" result).notIterable

/-- A body is an object, and when its result carries a decision, the conversions accept the result. -/
def readableBody : PyValue → Bool
  | .dict body =>
      match body.lookup "result" with
      | some (.dict result) =>
          match (result.lookup "decision").bind decisionOf? with
          | some _ => convertible P result
          | none => true
      | _ => true
  | _ => false

/-- The outcomes of the call that `evaluate` survives. -/
def readable : OpaCall → Bool
  | .failed _ => true
  | .answered statusCode content =>
      !isSuccess statusCode || match P.loads content with
        | .ok body => readableBody P body
        | .error .invalid => true
        | .error .tooDeep => false

variable {P}

theorem convertResult_isOk (declaredVersion : String) (decision : Decision)
    (result : List (String × PyValue)) :
    (convertResult P declaredVersion decision result).isOk = convertible P result := by
  unfold convertResult convertible
  rw [← PyValue.listOr_isOk, ← PyValue.floatOr_isOk, ← PyValue.listOr_isOk, ← PyValue.listOr_isOk]
  generalize (PyValue.get "reason_codes" result).listOr = reasonCodes
  generalize (PyValue.get "weighted_score" result).floatOr P.parseFloat = weightedScore
  generalize (PyValue.get "deny_reasons" result).listOr = denyReasons
  generalize (PyValue.get "approval_reasons" result).listOr = approvalReasons
  cases reasonCodes <;> cases weightedScore <;> cases denyReasons <;> cases approvalReasons <;> rfl

theorem convertResult_decision {declaredVersion : String} {decision : Decision}
    {result : List (String × PyValue)} {r : RawResult}
    (h : convertResult P declaredVersion decision result = .ok r) : r.decision = decision := by
  unfold convertResult at h
  generalize (PyValue.get "reason_codes" result).listOr = reasonCodes at h
  generalize (PyValue.get "weighted_score" result).floatOr P.parseFloat = weightedScore at h
  generalize (PyValue.get "deny_reasons" result).listOr = denyReasons at h
  generalize (PyValue.get "approval_reasons" result).listOr = approvalReasons at h
  cases reasonCodes <;> cases weightedScore <;> cases denyReasons <;> cases approvalReasons <;>
    cases h
  rfl

theorem decisionOf?_some {value : PyValue} {decision : Decision}
    (h : decisionOf? value = some decision) : value = .str decision.value := by
  cases value with
  | str s =>
      rw [decisionOf?, Decision.ofValue?] at h
      split at h
      case isTrue hs => cases h; rw [hs]; rfl
      split at h
      case isTrue hs => cases h; rw [hs]; rfl
      split at h
      case isTrue hs => cases h; rw [hs]; rfl
      case isFalse => cases h
  | _ => cases h

theorem unavailable_closed (call : OpaCall) (policyVersion detail : String) :
    Closed P call (unavailable policyVersion detail).raw :=
  .inr ⟨rfl, List.mem_cons_self⟩

/-- A body is read without an exception exactly when its shape is accepted. -/
theorem readBody_isOk (declaredVersion : String) (body : PyValue) :
    (readBody P declaredVersion body).isOk = readableBody P body := by
  cases body with
  | dict body =>
      rw [readBody, readableBody]
      rcases body.lookup "result" with - | result
      · rfl
      cases result with
      | dict result =>
          simp only
          cases result.lookup "decision" with
          | none => rfl
          | some value =>
              simp only [Option.bind_some]
              cases decisionOf? value with
              | none => rfl
              | some decision => exact convertResult_isOk declaredVersion decision result
      | _ => rfl
  | _ => rfl

/-- Every result of `evaluate` is closed. -/
theorem evaluate_closed {input : PolicyInput} {call : OpaCall} {r : RawResult}
    (h : evaluate P input call = .ok r) : Closed P call r := by
  cases call with
  | failed kind =>
      cases h
      exact unavailable_closed _ _ _
  | answered statusCode content =>
      simp only [evaluate] at h
      split at h
      case isFalse =>
          cases h
          exact unavailable_closed _ _ _
      case isTrue hsuccess =>
          split at h
          case h_2 => cases h; exact unavailable_closed _ _ _
          case h_3 => cases h
          case h_1 body hloads =>
              -- only a body with a decision string gives anything but the block of this client
              cases body with
              | dict body =>
                  simp only [readBody] at h
                  split at h
                  case h_2 => cases h; exact unavailable_closed _ _ _
                  case h_1 result hresult =>
                      split at h
                      case h_2 => cases h; exact unavailable_closed _ _ _
                      case h_1 value hvalue =>
                          split at h
                          case h_2 => cases h; exact unavailable_closed _ _ _
                          case h_1 decision hdecision =>
                              rw [decisionOf?_some hdecision] at hvalue
                              refine .inl ?_
                              simp only [opaDecision, hsuccess, hloads, hresult, hvalue,
                                convertResult_decision h]
              | _ => cases h

/-- `evaluate` returns exactly for the outcomes whose shapes it accepts. -/
theorem evaluate_isOk (input : PolicyInput) (call : OpaCall) :
    (evaluate P input call).isOk = readable P call := by
  cases call with
  | failed kind => rfl
  | answered statusCode content =>
      simp only [evaluate, readable]
      cases isSuccess statusCode with
      | false => rfl
      | true =>
          rw [if_pos rfl, Bool.not_true, Bool.false_or]
          cases P.loads content with
          | ok body => exact readBody_isOk _ body
          | error e => cases e <;> rfl

/-- The client returns a decision of the engine or a block exactly for the outcomes whose shapes it
accepts. -/
theorem evaluate_total_iff (P : Parsing) (input : PolicyInput) (call : OpaCall) :
    TotalAndClosed P input call ↔ readable P call = true := by
  rw [← evaluate_isOk input call]
  constructor
  · rintro ⟨r, hr, -⟩
    rw [hr]
    rfl
  · intro h
    cases hr : evaluate P input call with
    | error e =>
        rw [hr] at h
        cases h
    | ok r => exact ⟨r, hr, evaluate_closed hr⟩

/-- A parser that knows the bytes of the empty array. -/
def arrayParsing : Parsing where
  loads content := if content = [91, 93] then .ok (.list []) else .error .invalid
  str _ := ""
  parseFloat _ := none

/-- A reply whose body is an array raises. -/
theorem array_body_raises : ¬ TotalAndClosed arrayParsing {} (.answered 200 [91, 93]) := by
  have hraised : evaluate arrayParsing {} (.answered 200 [91, 93]) = .error .attributeError := rfl
  rintro ⟨r, hr, -⟩
  rw [hraised] at hr
  cases hr

end AgentPay.Properties
