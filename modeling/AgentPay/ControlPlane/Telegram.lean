import AgentPay.Gateway.Config
import AgentPay.Library.Interleaving
import AgentPay.Library.PyText

/-!
# Telegram account linking

A link code is issued for an account and redeemed under a Telegram id. Each of the two is one
transaction: it reads, decides, and hands its writes over at the commit, where the database carries
them out against the rows as they are then. A row is written by its primary key alone: an update of a
row that is gone raises, a deletion of one does not, and an insertion raises when the key is taken.
-/

set_option autoImplicit false

namespace AgentPay.ControlPlane

open AgentPay.Library AgentPay.Gateway

/-! ## Rows -/

/-- `TelegramLinkCode`. -/
structure LinkCode where
  code : String
  userId : String
  createdAt : Time
  usedAt : Option Time := none
deriving DecidableEq

/-- `TelegramLink`. -/
structure TelegramLink where
  telegramId : String
  userId : String
  linkedAt : Time
deriving DecidableEq

/-- `CODE_TTL`. -/
def codeTtl : Time := seconds 600

/-- `_CODE_ALPHABET`. -/
def codeAlphabet : List Char := "ABCDEFGHJKLMNPQRSTUVWXYZ23456789".toList

/-- The code of six drawn letters. -/
def codeOf (letters : Fin 6 → Fin 32) : String :=
  "LINK-" ++ String.ofList ((List.ofFn letters).map fun i => codeAlphabet.getD i.val 'A')

/-- `_mask`. -/
def mask (telegramId : String) : String :=
  let chars := telegramId.toList
  if chars.length ≤ 4 then String.ofList (List.replicate chars.length '*')
  else String.ofList (chars.take 2 ++ List.replicate (chars.length - 4) '*' ++
    chars.drop (chars.length - 2))

/-! ## Operations -/

/-- The exceptions of the two transactions. -/
inductive LinkExn where
  | linkError (status : ℕ) (detail : String)
  | integrityError
  | staleDataError
  | other

/-- The operations: readings of the clock, the draw of a code, the statements that read, and the two
commits with what they write. -/
inductive LinkOp where
  | now
  | draw
  | selectUnused (userId : String)
  | getCode (code : String)
  | getLink (telegramId : String)
  | commitIssue (stale : List String) (row : LinkCode)
  | commitRedeem (row : LinkCode) (usedAt : Time) (link : TelegramLink) (linked : Bool)

/-- The values the operations answer with. -/
abbrev LinkOp.Val : LinkOp → Type
  | now => Time
  | draw => Fin 6 → Fin 32
  | selectUnused _ => List String
  | getCode _ => Option LinkCode
  | getLink _ => Bool
  | commitIssue .. | commitRedeem .. => Unit

/-- A coroutine of the linking service. -/
abbrev LinkPy (α : Type) := Prog LinkOp LinkOp.Val LinkExn α

/-- Suspension at an operation. -/
abbrev ask (op : LinkOp) : LinkPy op.Val := Prog.perform op

/-- What the caller of a transaction gets. -/
inductive LinkReply where
  | code (code : String) (expiresAt : Time) (expiresInSeconds : ℕ)
  | linked (userId telegramIdMasked : String)
deriving DecidableEq

/-- `issue_code`. -/
def issueCode (userId : String) : LinkPy LinkReply := do
  let letters ← ask .draw
  let now ← ask .now
  let stale ← ask (.selectUnused userId)
  ask (.commitIssue stale { code := codeOf letters, userId, createdAt := now })
  pure (.code (codeOf letters) (now + codeTtl) 600)

/-- The transaction of `redeem_code`, for a stripped id and a code in its normal form. -/
def redeemNormalized (code telegramId : String) : LinkPy LinkReply := do
  let row ← ask (.getCode code)
  match row with
  | none => Prog.throw (.linkError 404 "unknown link code")
  | some row =>
      if row.usedAt.isSome then Prog.throw (.linkError 409 "link code already used")
      else do
        let now ← ask .now
        if row.createdAt + codeTtl < now then Prog.throw (.linkError 410 "link code expired")
        else do
          let usedAt ← ask .now
          let linkedAt ← ask .now
          let linked ← ask (.getLink telegramId)
          ask (.commitRedeem row usedAt { telegramId, userId := row.userId, linkedAt } linked)
          pure (.linked row.userId (mask telegramId))

/-- `redeem_code`; `upper` is `str.upper`. -/
def redeemCode (upper : List Char → List Char) (code telegramId : String) : LinkPy LinkReply :=
  redeemNormalized (String.ofList (upper (strip code.toList)))
    (String.ofList (strip telegramId.toList))

/-! ## The database -/

/-- A committed redemption: the code, the id, the account it was bound to, and when. -/
structure Redemption where
  code : String
  telegramId : String
  userId : String
  committedAt : Time
deriving DecidableEq

/-- The clock and the two tables. The other two fields are no tables; they are the history of what was
inserted into the codes and of the redemptions, newest first. -/
structure LinkWorld where
  clock : Time
  codes : List LinkCode := []
  links : List TelegramLink := []
  issued : List LinkCode := []
  redemptions : List Redemption := []

namespace LinkWorld

/-- The row of a code. -/
def row? (w : LinkWorld) (code : String) : Option LinkCode :=
  w.codes.find? fun r => decide (r.code = code)

/-- The Telegram id has a link. -/
def hasLink (w : LinkWorld) (telegramId : String) : Bool :=
  w.links.any fun l => decide (l.telegramId = telegramId)

/-- The key of the new row is taken by a row that the same transaction does not delete. -/
def taken (w : LinkWorld) (stale : List String) (code : String) : Bool :=
  w.codes.any fun r => decide (r.code = code) && decide (r.code ∉ stale)

/-- The commit of an issue: the codes that were read as unused are deleted by their keys. -/
def commitIssue (w : LinkWorld) (stale : List String) (row : LinkCode) : LinkWorld × Except LinkExn Unit :=
  if w.taken stale row.code then (w, .error .integrityError)
  else ({ w with
    codes := row :: w.codes.filter fun r => decide (r.code ∉ stale)
    issued := row :: w.issued }, .ok ())

/-- The commit of a redemption: the code is marked by its key, whatever its row holds by then, and the
link is inserted or updated as it was found. -/
def commitRedeem (w : LinkWorld) (row : LinkCode) (usedAt : Time) (link : TelegramLink)
    (linked : Bool) : LinkWorld × Except LinkExn Unit :=
  if (w.row? row.code).isNone || linked && !w.hasLink link.telegramId then
    (w, .error .staleDataError)
  else if !linked && w.hasLink link.telegramId then (w, .error .integrityError)
  else ({ w with
    codes := w.codes.map fun r => if r.code = row.code then { r with usedAt := some usedAt } else r
    links := link :: w.links.filter fun l => decide (l.telegramId ≠ link.telegramId)
    redemptions := ⟨row.code, link.telegramId, link.userId, w.clock⟩ :: w.redemptions }, .ok ())

end LinkWorld

/-- How an operation ends: it completes, with the letters that were drawn, or it fails before or after
it took effect. -/
inductive LinkOutcome where
  | ok
  | letters (letters : Fin 6 → Fin 32)
  | fault (e : LinkExn) (applied : Bool)

namespace LinkWorld

/-- An operation that completes. -/
def complete (w : LinkWorld) : (op : LinkOp) → Option (LinkWorld × Except LinkExn op.Val)
  | .now => some (w, .ok w.clock)
  | .draw => none
  | .selectUnused userId => some (w, .ok ((w.codes.filter fun r =>
      decide (r.userId = userId) && r.usedAt.isNone).map LinkCode.code))
  | .getCode code => some (w, .ok (w.row? code))
  | .getLink telegramId => some (w, .ok (w.hasLink telegramId))
  | .commitIssue stale row => some (w.commitIssue stale row)
  | .commitRedeem row usedAt link linked => some (w.commitRedeem row usedAt link linked)

/-- One operation under an outcome. -/
def perform (w : LinkWorld) (op : LinkOp) :
    LinkOutcome → Option (LinkWorld × Except LinkExn op.Val)
  | .ok => w.complete op
  | .letters letters => match op with
      | .draw => some (w, .ok letters)
      | _ => none
  | .fault e applied =>
      if applied then (w.complete op).map fun p => (p.1, .error e) else some (w, .error e)

end LinkWorld

/-! ## The machine -/

/-- A call of the linking service. -/
inductive LinkJob where
  | issueCode (userId : String)
  | redeemCode (code telegramId : String)

/-- The linking service as a machine over its database; the environment lets time pass. -/
def linking (upper : List Char → List Char) :
    Machine LinkWorld LinkJob Time LinkOutcome LinkOp LinkOp.Val LinkExn LinkReply where
  start
    | .issueCode userId => ControlPlane.issueCode userId
    | .redeemCode code telegramId => ControlPlane.redeemCode upper code telegramId
  perform := LinkWorld.perform
  environment w d := { w with clock := w.clock + d }

/-- Configurations of the linking service. -/
abbrev LinkConfig := Machine.Config LinkWorld LinkJob LinkOutcome LinkOp LinkOp.Val LinkExn LinkReply

/-- Conditions on its steps. -/
abbrev LinkDiscipline :=
  Machine.Discipline LinkWorld LinkJob Time LinkOutcome LinkOp LinkOp.Val LinkExn LinkReply

end AgentPay.ControlPlane
