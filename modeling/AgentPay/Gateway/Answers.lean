import AgentPay.Gateway.Solo

/-!
# The two readers of provider answers

What a reply asks for, apart from the row it is about: `settlement` for the reply to a charge,
`resolution` for the reply to a query. Each handler carries out what its reading asks for.
-/

set_option autoImplicit false

namespace AgentPay.Gateway

open AgentPay.Library

/-- A transition with what it writes. -/
structure Transition where
  target : PaymentState
  reference : Option Json := none
  detail : Option String := none

/-- The outcome `submit` returns after a transition. -/
def Transition.outcome (t : Transition) : ProviderOutcome where
  state := t.target
  providerReference := t.reference
  detail := t.detail.getD ""

/-- The database accepts what the transition writes. -/
def Transition.accepted (t : Transition) : Bool := storable t.reference t.detail

/-- The fields of a body that is an object. -/
def ProviderReply.fields? (reply : ProviderReply) : Option (List (String × Json)) :=
  match reply.json with
  | some (.obj fields) => some fields
  | _ => none

/-- `payload.get(key)` of an object. -/
def fieldOf (key : String) (fields : List (String × Json)) : Json :=
  (Json.field? key fields).getD .null

/-- What the exception of a body that is no object is. -/
def unreadable (reply : ProviderReply) : Exn :=
  match reply.json with
  | some _ => .attributeError
  | none => .valueError

/-- What `submit` makes of a body. -/
def settleBody (R : Runtime) (fields : List (String × Json)) : Transition :=
  if Json.isText "confirmed" (fieldOf "status" fields) then
    { target := .confirmed, reference := some (fieldOf "provider_reference" fields) }
  else
    { target := .failed
      detail := some (declineDetail R (fieldOf "detail" fields) (fieldOf "status" fields)) }

/-- The transition `submit` makes on a reply, or the exception it raises. -/
def settlement (R : Runtime) (reply : ProviderReply) : Except Exn Transition :=
  if 400 ≤ reply.statusCode then
    .ok { target := .failed, detail := some (firstChars 200 reply.text) }
  else match reply.fields? with
    | some fields => .ok (settleBody R fields)
    | none => .error (unreadable reply)

/-- What `reconcile_unknown` makes of a body. -/
def resolveBody (fields : List (String × Json)) : Except Exn (Option Transition) :=
  if Json.isText "confirmed" (fieldOf "status" fields) then
    .ok (some {
      target := .confirmed
      reference := some (fieldOf "provider_reference" fields)
      detail := some "resolved by reconciliation" })
  else (hashableIn ["failed", "declined"] (fieldOf "status" fields)).map fun refused =>
    if refused then some { target := .failed, detail := some "resolved by reconciliation" } else none

/-- The transition `reconcile_unknown` makes on a reply, if any, or the exception it raises. -/
def resolution (reply : ProviderReply) : Except Exn (Option Transition) :=
  if reply.statusCode = 404 then
    .ok (some { target := .failed, detail := some "provider has no record; never charged" })
  else if 400 ≤ reply.statusCode then .ok none
  else match reply.fields? with
    | some fields => resolveBody fields
    | none => .error (unreadable reply)

/-- The counts with one more payment in a state. -/
def Resolved.add (counts : Resolved) : Option Transition → Resolved
  | some t => if t.target = .confirmed then { counts with confirmed := counts.confirmed + 1 }
      else { counts with failed := counts.failed + 1 }
  | none => { counts with stillUnknown := counts.stillUnknown + 1 }

/-- `submit` carries out what its reading of the reply asks for. -/
theorem settleReply_eq (R : Runtime) (txn : CanonicalTransaction) (reply : ProviderReply) :
    settleReply R txn reply = match settlement R reply with
      | .ok t => setState R txn.paymentAuthorizationId t.target t.reference t.detail true >>=
          fun _ => pure t.outcome
      | .error e => Prog.throw e := by
  obtain ⟨statusCode, text, json⟩ := reply
  unfold settleReply settlement
  split
  · rfl
  · cases json with
    | none => rfl
    | some payload =>
        cases payload with
        | obj fields =>
            change (if Json.isText "confirmed" (fieldOf "status" fields) then _ else _ :
              Py ProviderOutcome) = _
            simp only [ProviderReply.fields?, settleBody]
            split <;> rfl
        | _ => rfl

/-- A reconciliation carries out what its reading of the reply asks for. -/
theorem resolveReply_eq (R : Runtime) (id : ℕ) (reply : ProviderReply) (counts : Resolved) :
    resolveReply R id reply counts = match resolution reply with
      | .ok (some t) => setState R id t.target t.reference t.detail true >>=
          fun _ => pure (counts.add (some t))
      | .ok none => pure (counts.add none)
      | .error e => Prog.throw e := by
  obtain ⟨statusCode, text, json⟩ := reply
  unfold resolveReply resolution
  split
  · rfl
  split
  · rfl
  cases json with
  | none => rfl
  | some payload =>
      cases payload with
      | obj fields =>
          change (if Json.isText "confirmed" (fieldOf "status" fields) then _ else _ :
            Py Resolved) = _
          simp only [ProviderReply.fields?, resolveBody]
          split
          · rfl
          · change ((Prog.ret (hashableIn ["failed", "declined"] (fieldOf "status" fields)) :
              Py Bool) >>= _) = _
            generalize hashableIn ["failed", "declined"] (fieldOf "status" fields) = refused
            cases refused with
            | error e => rfl
            | ok refused => cases refused <;> rfl
      | _ => rfl

end AgentPay.Gateway
