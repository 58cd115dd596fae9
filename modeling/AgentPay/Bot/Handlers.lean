import AgentPay.Gateway.Config
import AgentPay.Library.Program
import AgentPay.Library.PyText

/-!
# The Telegram bot

The handlers of the bot over the calls they make: to Telegram, which may fail, and to the services behind
the bot, whose answers are only formatted here. A summary is what the simulator returns for a run.
The polling loop handles the updates one after another and goes on after an exception.
-/

set_option autoImplicit false

namespace AgentPay.Bot

open AgentPay.Library AgentPay.Gateway

/-- The settings the handlers read. -/
structure BotSettings where
  botUsername : String := ""
  allowlist : List String := []
  defaultBudget : String := "5000.00"

/-! ## Updates -/

/-- A message; the sender and the text may be missing. -/
structure Message where
  chatId : ℤ
  fromId : Option ℤ := none
  text : Option String := none

/-- A press of a button, by an account. -/
structure CallbackQuery where
  id : String
  fromId : ℤ
  chatId : Option ℤ := none
  data : String := ""

/-- An update. -/
inductive Update where
  | message (message : Message)
  | callbackQuery (cq : CallbackQuery)
  | other

/-! ## Summaries -/

/-- A line of a cart. -/
structure CartLine where
  name : String
  quantity : ℤ
  unitPrice : String

/-- The detail of the step that proposed the payment. -/
structure ProposedCart where
  merchantId : String
  amount : String
  currency : String
  items : List CartLine
  merchantSourceType : String

/-- A step of the transcript; its detail is empty or a cart. -/
structure TranscriptStep where
  kind : String
  name : String
  detail : Option ProposedCart

/-- `injection` of an adversarial run. -/
structure Injection where
  reachedAgentUnmodified : Bool
  payloadChars : ℕ

/-- The summary of a run. -/
structure RunSummary where
  runId : String
  decision : Option String
  reasonCodes : List String := []
  state : Option String := none
  providerReference : Option String := none
  auditHash : Option String := none
  injection : Option Injection := none
  steps : List TranscriptStep := []

/-! ## Formatting -/

/-- `html.escape` of one character. -/
def escapeHtml (c : Char) : List Char :=
  match c.toNat with
  | 38 => "&amp;".toList
  | 60 => "&lt;".toList
  | 62 => "&gt;".toList
  | 34 => "&quot;".toList
  | 39 => "&#x27;".toList
  | _ => [c]

/-- `_esc` of a text. -/
def esc (text : String) : String := String.ofList (text.toList.flatMap escapeHtml)

/-- `_esc` of a text that may be missing. -/
def escOr (text : Option String) : String := esc (text.getD "None")

/-- `_SYMBOL`. -/
def symbol? (code : String) : Option String :=
  if code = "INR" then some "₹"
  else if code = "USD" then some "$"
  else if code = "EUR" then some "€"
  else if code = "GBP" then some "£"
  else none

/-- `_money`; `upper` is `str.upper`. -/
def money (upper : List Char → List Char) (amount currency : String) : String :=
  match symbol? (String.ofList (upper currency.toList)) with
  | some sym => sym ++ esc amount
  | none => esc amount ++ " " ++ esc currency

/-- `_cart_from_summary`. -/
def cartFromSummary (summary : RunSummary) : Option ProposedCart :=
  (summary.steps.find? fun step =>
    decide (step.name = "propose_payment_intent") && decide (step.kind = "tool_call")).bind
      TranscriptStep.detail

/-- `cart_oneline`. -/
def cartOneline (upper : List Char → List Char) (summary : RunSummary) : String :=
  match cartFromSummary summary with
  | none => ""
  | some cart => "Attempted: " ++ money upper cart.amount cart.currency ++ " at " ++
      esc cart.merchantId ++ " — refused before payment."

/-- `format_cart`. -/
def formatCart (upper : List Char → List Char) (summary : RunSummary) : String :=
  match cartFromSummary summary with
  | none => "<i>The agent did not produce a cart.</i>"
  | some cart =>
      let items := cart.items.map fun it => "• " ++ esc it.name ++ " ×" ++ esc (toString it.quantity) ++
        " — " ++ money upper it.unitPrice cart.currency ++ " each"
      let total := "Total: <b>" ++ money upper cart.amount cart.currency ++ "</b> at " ++
        esc cart.merchantId
      let source := if cart.merchantSourceType = "" then []
        else ["Source: " ++ esc cart.merchantSourceType]
      "\n".intercalate (["<b>The agent wants to buy:</b>"] ++ items ++ [total] ++ source)

/-- A button. -/
structure Button where
  text : String
  callbackData : String

/-- `format_decision`. -/
def formatDecision (summary : RunSummary) : String × Option (List (List Button)) :=
  let joined := ", ".intercalate summary.reasonCodes
  let reasons := if joined = "" then "—" else joined
  let audit := "Audit: <code>" ++ esc (firstChars 16 (summary.auditHash.getD "")) ++ "…</code>"
  if summary.decision = some "BLOCK" then
    let extra := match summary.injection with
      | none => ""
      | some inj => "\nAttack reached the agent unmodified: " ++
          (if inj.reachedAgentUnmodified then "yes" else "no") ++ " (" ++
          toString inj.payloadChars ++ " chars)"
    ("🚫 <b>BLOCKED by policy</b>\nReasons: <code>" ++ esc reasons ++
      "</code>\nNo token was issued. The provider was never contacted." ++ extra ++ "\n" ++ audit, none)
  else if summary.decision = some "REQUIRE_APPROVAL" then
    ("🟡 <b>Approval needed</b>\nReasons: <code>" ++ esc reasons ++
      "</code>\nNothing is charged until you decide. The approval is bound to this " ++
      "exact amount, merchant and cart.",
      some [[⟨"✅ Approve", "approve:" ++ summary.runId⟩, ⟨"❌ Deny", "deny:" ++ summary.runId⟩]])
  else if summary.decision = some "ALLOW" then
    let reference := summary.providerReference.getD ""
    ("✅ <b>Allowed and paid</b>\nState: <code>" ++ escOr summary.state ++ "</code> · Ref: <code>" ++
      esc (if reference = "" then "—" else reference) ++ "</code>\n" ++ audit, none)
  else ("⚠️ Unexpected outcome: <code>" ++ escOr summary.decision ++ "</code> (" ++ esc reasons ++ ")",
    none)

/-! ## Calls -/

/-- The calls of the handlers: to Telegram, to the control plane and to the simulator. -/
inductive BotOp where
  | sendMessage (chatId : Option ℤ) (text : String) (buttons : Option (List (List Button)))
  | answerCallbackQuery (id : String)
  | whoami (telegramId : Option ℤ)
  | linkCode (code : String) (telegramId : Option ℤ)
  | run (scenario instruction budget : String)
  | approveRun (runId : String)

/-- The values the calls answer with. -/
abbrev BotOp.Val : BotOp → Type
  | sendMessage .. | answerCallbackQuery _ => Unit
  | whoami _ => Option String
  | linkCode .. => Bool × String
  | run .. | approveRun _ => RunSummary

/-- A coroutine of the bot; an exception is known by its text. -/
abbrev BotPy (α : Type) := Prog BotOp BotOp.Val String α

/-- A call. -/
abbrev await (op : BotOp) : BotPy op.Val := Prog.perform op

/-! ## Handlers -/

/-- `WELCOME`. -/
def welcome : String :=
  "<b>AgentPay Sentinel — demo bot</b>\n\n" ++
  "I run a real AI shopping agent, and every payment it proposes goes through " ++
  "the Sentinel policy firewall. I decide nothing myself.\n\n" ++
  "First, link this chat to an account:\n" ++
  "1. Open the web console → <b>Telegram</b> tab → <i>Generate link code</i>\n" ++
  "2. Send me that code (looks like <code>LINK-AB12CD</code>)\n\n" ++
  "Then just tell me what to buy, e.g.\n" ++
  "<i>Restock the office kitchen with coffee. Keep it under 5000 rupees.</i>\n\n" ++
  "/help for commands."

/-- `HELP`. -/
def help : String :=
  "<b>Commands</b>\n" ++
  "<code>LINK-XXXXXX</code> — link this chat to your account\n" ++
  "/status — show which account this chat is linked to\n" ++
  "/attack — run the poisoned-merchant-page scenario (shows a block)\n" ++
  "any other text — treated as a purchase instruction for the agent\n"

/-- The character a pattern that ignores case takes a character for: two more letters count as i, one as
k and one as s. -/
def ignoreCase (c : Char) : Char :=
  match c.toNat with
  | 0x130 | 0x131 => 'i'
  | 0x212a => 'k'
  | 0x17f => 's'
  | _ => c.toLower

/-- `LINK_RE.match` of a stripped text. -/
def isLinkCode (text : List Char) : Bool :=
  let folded := text.map ignoreCase
  decide (folded.take 5 = "link-".toList) && decide (9 ≤ folded.length) &&
    (folded.drop 5).all fun c => decide ('a' ≤ c ∧ c ≤ 'z') || decide ('0' ≤ c ∧ c ≤ '9')

/-- `str` of the id of a sender. -/
def idText (fromId : Option ℤ) : String :=
  match fromId with
  | some id => toString id
  | none => "None"

/-- The account is on the allow-list, or there is none. -/
def BotSettings.allows (settings : BotSettings) (fromId : Option ℤ) : Bool :=
  settings.allowlist.isEmpty || decide (idText fromId ∈ settings.allowlist)

/-- The end of `handle_message`: the scenario is run and its summary shown. -/
def showRun (upper : List Char → List Char) (settings : BotSettings) (chatId : ℤ) (text : String) :
    BotPy Unit := do
  let scenario := if "/attack".toList.isPrefixOf text.toList then "adversarial" else "clean"
  let instruction := if scenario = "adversarial" then
      "Restock the office kitchen with coffee. Keep it under 5000 rupees."
    else text
  await (.sendMessage chatId "🔍 Working… the agent is researching. This can take a bit." none)
  match ← (await (.run scenario instruction settings.defaultBudget)).attempt with
  | .error exc => await (.sendMessage chatId ("⚠️ The run failed: " ++ esc exc) none)
  | .ok summary =>
      let textOut := (formatDecision summary).1
      let buttons := (formatDecision summary).2
      if summary.decision = some "BLOCK" then
        let line := cartOneline upper summary
        await (.sendMessage chatId (if line = "" then textOut else textOut ++ "\n\n" ++ line) buttons)
      else do
        await (.sendMessage chatId (formatCart upper summary) none)
        await (.sendMessage chatId textOut buttons)

/-- `handle_message`. -/
def handleMessage (upper : List Char → List Char) (settings : BotSettings) (message : Message) :
    BotPy Unit :=
  let chatId := message.chatId
  let tid := message.fromId
  let text := String.ofList (strip (message.text.getD "").toList)
  if text = "" then pure ()
  else if ¬ settings.allows tid then
    await (.sendMessage chatId "This bot is not open to this account." none)
  else if text = "/start" ∨ text = "/start@" ++ settings.botUsername then
    await (.sendMessage chatId welcome none)
  else if "/help".toList.isPrefixOf text.toList then await (.sendMessage chatId help none)
  else if isLinkCode text.toList then do
    let (ok, detail) ← await (.linkCode text tid)
    if ok then
      await (.sendMessage chatId ("✅ Linked to account <code>" ++ esc detail ++
        "</code>. Now tell me what to buy.") none)
    else await (.sendMessage chatId ("❌ Could not link: " ++ esc detail) none)
  else do
    let userId := (← await (.whoami tid)).getD ""
    if userId = "" then
      await (.sendMessage chatId ("This chat is not linked yet. Get a code from the web console's " ++
        "<b>Telegram</b> tab and send it to me.") none)
    else if "/status".toList.isPrefixOf text.toList then
      await (.sendMessage chatId ("Linked to <code>" ++ esc userId ++ "</code>.") none)
    else showRun upper settings chatId text

/-- `data.partition(":")`: what stands before the first colon, and what follows it. -/
def CallbackQuery.parts (cq : CallbackQuery) : String × String :=
  let chars := cq.data.toList
  (String.ofList (chars.takeWhile (· ≠ ':')), String.ofList ((chars.dropWhile (· ≠ ':')).drop 1))

/-- `handle_callback`. -/
def handleCallback (cq : CallbackQuery) : BotPy Unit := do
  await (.answerCallbackQuery cq.id)
  let (action, runId) := cq.parts
  if action = "deny" then await (.sendMessage cq.chatId "❌ Denied. Nothing was charged." none)
  else if action = "approve" then do
    await (.sendMessage cq.chatId "⏳ Approving…" none)
    match ← (await (.approveRun runId)).attempt with
    | .error exc => await (.sendMessage cq.chatId ("⚠️ Approval failed: " ++ esc exc) none)
    | .ok summary => await (.sendMessage cq.chatId (formatDecision summary).1 none)
  else pure ()

/-- `handle_update`. -/
def handleUpdate (upper : List Char → List Char) (settings : BotSettings) : Update → BotPy Unit
  | .message message => handleMessage upper settings message
  | .callbackQuery cq => handleCallback cq
  | .other => pure ()

/-! ## Runs -/

/-- Everything outside the bot: how it answers a call, and the accounts that are linked to Telegram
ids. -/
structure Outside (W : Type) where
  answer : W → (op : BotOp) → Except String op.Val × W
  account : W → ℤ → Option String

/-- A run of the polling loop over the updates it gets. -/
structure BotRun (W : Type) where
  upper : List Char → List Char
  settings : BotSettings
  outside : Outside W
  start : W
  updates : List Update

namespace BotRun

variable {W : Type}

/-- The world after an update was handled; an exception of the handler is logged. -/
def handle (r : BotRun W) (w : W) (update : Update) : W :=
  ((handleUpdate r.upper r.settings update).eval r.outside.answer w).2

/-- The world in which an update is handled. -/
def before (r : BotRun W) (k : ℕ) : W := (r.updates.take k).foldl r.handle r.start

/-- The bot makes a call in a world, for an update. -/
def Calls (r : BotRun W) (k : ℕ) (w : W) (op : BotOp) : Prop :=
  ∃ update, r.updates[k]? = some update ∧
    (w, op) ∈ (handleUpdate r.upper r.settings update).trace r.outside.answer (r.before k)

end BotRun

end AgentPay.Bot
