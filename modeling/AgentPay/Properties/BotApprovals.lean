import AgentPay.Bot.Handlers

/-!
# Who approves

A message is checked before anything is run for it: its sender is on the allow-list, if there is one,
and linked to an account (`runs_of_linked`). A press of a button is not checked, and a denial leaves
nothing behind. So the bot approves a run exactly for those who press the button and can be
answered, and only the right person approves when only the right person presses (`approvals_rightful_iff`).
-/

set_option autoImplicit false

namespace AgentPay.Bot

open AgentPay.Library AgentPay.Gateway

section Handlers

variable {W : Type} {out : Outside W} {upper : List Char → List Char} {settings : BotSettings}

/-- A call that runs or approves nothing. -/
def Idle : BotOp → Prop
  | .run .. | .approveRun _ => False
  | _ => True

/-- A call that approves nothing. -/
def ApprovesNone : BotOp → Prop
  | .approveRun _ => False
  | _ => True

/-- A call that runs nothing. -/
def RunsNone : BotOp → Prop
  | .run .. => False
  | _ => True

theorem Idle.approvesNone {op : BotOp} (h : Idle op) : ApprovesNone op := by
  cases op with
  | run scenario instruction budget => trivial
  | approveRun runId => exact h
  | _ => trivial

theorem only_send (A : BotOp → Prop) (chatId : Option ℤ) (text : String)
    (buttons : Option (List (List Button))) (h : A (.sendMessage chatId text buttons)) :
    (await (.sendMessage chatId text buttons)).Only A := (Prog.only_perform _ _).2 h

theorem only_showRun (chatId : ℤ) (text : String) :
    (showRun upper settings chatId text).Only ApprovesNone := by
  refine Prog.Only.bind (only_send _ _ _ _ trivial) fun _ => ?_
  refine Prog.Only.bind (Prog.Only.attempt ((Prog.only_perform _ _).2 trivial)) fun result => ?_
  cases result with
  | error exc => exact only_send _ _ _ _ trivial
  | ok summary =>
      simp only
      split
      · exact only_send _ _ _ _ trivial
      · exact Prog.Only.bind (only_send _ _ _ _ trivial) fun _ => only_send _ _ _ _ trivial

/-- A message is idle, up to a run that comes after its checks. -/
theorem handleMessage_cases (upper : List Char → List Char) (settings : BotSettings) (message : Message) :
    (handleMessage upper settings message).Only Idle ∨
      settings.allows message.fromId = true ∧ ∃ after : Option String → BotPy Unit,
        handleMessage upper settings message = await (.whoami message.fromId) >>= after ∧
        ∀ userId : Option String, (after userId).Only Idle ∨
          userId.getD "" ≠ "" ∧ ∃ text, after userId = showRun upper settings message.chatId text := by
  rw [handleMessage]
  simp only
  generalize String.ofList (strip (message.text.getD "").toList) = text
  split
  · exact .inl trivial
  split
  · exact .inl (only_send _ _ _ _ trivial)
  case isFalse hallows =>
    split
    · exact .inl (only_send _ _ _ _ trivial)
    split
    · exact .inl (only_send _ _ _ _ trivial)
    split
    · refine .inl (Prog.Only.bind ((Prog.only_perform _ _).2 trivial) fun reply => ?_)
      split
      · exact only_send _ _ _ _ trivial
      · exact only_send _ _ _ _ trivial
    · refine .inr ⟨not_not.1 hallows, _, rfl, fun userId => ?_⟩
      split
      · exact .inl (only_send _ _ _ _ trivial)
      case isFalse hlinked =>
        split
        · exact .inl (only_send _ _ _ _ trivial)
        · exact .inr ⟨hlinked, text, rfl⟩

theorem only_handleMessage (upper : List Char → List Char) (settings : BotSettings)
    (message : Message) : (handleMessage upper settings message).Only ApprovesNone := by
  have hcases := handleMessage_cases upper settings message
  generalize handleMessage upper settings message = program at hcases ⊢
  rcases hcases with honly | ⟨-, after, rfl, hafter⟩
  · exact honly.mono fun _ => Idle.approvesNone
  · refine Prog.Only.bind ((Prog.only_perform _ _).2 trivial) fun userId => ?_
    rcases hafter userId with honly | ⟨-, text, hshow⟩
    · exact honly.mono fun _ => Idle.approvesNone
    · exact hshow ▸ only_showRun message.chatId text

theorem only_handleCallback (cq : CallbackQuery) : (handleCallback cq).Only RunsNone := by
  refine Prog.Only.bind ((Prog.only_perform _ _).2 trivial) fun _ => ?_
  obtain ⟨action, named⟩ := cq.parts
  simp only
  split
  · exact only_send _ _ _ _ trivial
  split
  · refine Prog.Only.bind (only_send _ _ _ _ trivial) fun _ => ?_
    refine Prog.Only.bind (Prog.Only.attempt ((Prog.only_perform _ _).2 trivial)) fun result => ?_
    cases result with
    | error exc => exact only_send _ _ _ _ trivial
    | ok summary => exact only_send _ _ _ _ trivial
  · trivial

/-- The world in which the bot has answered a press and told that it approves, unless Telegram fails. -/
def Outside.answered (out : Outside W) (w : W) (cq : CallbackQuery) : Option W :=
  let query := out.answer w (.answerCallbackQuery cq.id)
  let told := out.answer query.2 (.sendMessage cq.chatId "⏳ Approving…" none)
  if query.1.isOk && told.1.isOk then some told.2 else none

theorem answered_eq_some {cq : CallbackQuery} {w w' : W} : out.answered w cq = some w' ↔
    (out.answer w (.answerCallbackQuery cq.id)).1 = .ok () ∧
      out.answer (out.answer w (.answerCallbackQuery cq.id)).2
        (.sendMessage cq.chatId "⏳ Approving…" none) = (.ok (), w') := by
  rw [Outside.answered]
  generalize out.answer w (.answerCallbackQuery cq.id) = query
  obtain ⟨query, w₁⟩ := query
  cases query with
  | error exc => simp [Except.isOk, Except.toBool]
  | ok _ =>
      simp only
      generalize out.answer w₁ (.sendMessage cq.chatId "⏳ Approving…" none) = told
      obtain ⟨told, w₂⟩ := told
      cases told with
      | error exc => simp [Except.isOk, Except.toBool]
      | ok _ => simp [Except.isOk, Except.toBool]

/-- No other call is an approval. -/
theorem not_mem_await {w w' : W} {runId : String} {op : BotOp} (hop : ApprovesNone op) :
    (w', .approveRun runId) ∉ (await op).trace out.answer w := by
  intro h
  obtain ⟨-, rfl⟩ := Prod.mk.inj (List.mem_singleton.1 h)
  exact hop

theorem not_mem_send {w w' : W} {runId : String} {chatId : Option ℤ} {text : String}
    {buttons : Option (List (List Button))} :
    (w', .approveRun runId) ∉ (await (.sendMessage chatId text buttons)).trace out.answer w :=
  fun h => BotOp.noConfusion (Prod.mk.inj (List.mem_singleton.1 h)).2

/-- The end of `handle_callback` makes its one approval when it has told so. -/
theorem approving_iff {cq : CallbackQuery} {w w' : W} {named runId : String} :
    (w', .approveRun runId) ∈ (do
      await (.sendMessage cq.chatId "⏳ Approving…" none)
      match ← (await (.approveRun named)).attempt with
      | .error exc => await (.sendMessage cq.chatId ("⚠️ Approval failed: " ++ esc exc) none)
      | .ok summary => await (.sendMessage cq.chatId (formatDecision summary).1 none) :
        BotPy Unit).trace out.answer w ↔
      named = runId ∧ out.answer w (.sendMessage cq.chatId "⏳ Approving…" none) = (.ok (), w') := by
  rw [Prog.mem_trace_bind, Prog.eval_perform]
  generalize htold : out.answer w (.sendMessage cq.chatId "⏳ Approving…" none) = told
  obtain ⟨told, w₂⟩ := told
  constructor
  · rintro (h | ⟨_, htold, h⟩)
    · exact absurd h not_mem_send
    · cases htold
      rcases Prog.mem_trace_bind.1 h with h | ⟨result, -, h⟩
      · rw [Prog.mem_trace_attempt, Prog.trace_perform, List.mem_singleton, Prod.mk.injEq] at h
        obtain ⟨rfl, hop⟩ := h
        exact ⟨(BotOp.approveRun.inj hop).symm, rfl⟩
      · cases result with
        | error exc => exact absurd h not_mem_send
        | ok summary => exact absurd h not_mem_send
  · rintro ⟨rfl, heq⟩
    cases heq
    refine .inr ⟨(), rfl, Prog.mem_trace_bind.2 (.inl ?_)⟩
    exact Prog.mem_trace_attempt.2 (List.mem_singleton_self _)

/-- A press of the button approves the run it names, whoever presses. -/
theorem approves_iff {cq : CallbackQuery} {w w' : W} {runId : String} :
    (w', .approveRun runId) ∈ (handleCallback cq).trace out.answer w ↔
      cq.parts = ("approve", runId) ∧ out.answered w cq = some w' := by
  have hquery : ApprovesNone (.answerCallbackQuery cq.id) := trivial
  have hdenied : ApprovesNone (.sendMessage cq.chatId "❌ Denied. Nothing was charged." none) := trivial
  rw [handleCallback, Prog.mem_trace_bind, or_iff_right (not_mem_await hquery), answered_eq_some,
    Prog.eval_perform]
  generalize out.answer w (.answerCallbackQuery cq.id) = query
  obtain ⟨action, named⟩ := cq.parts
  simp only
  split
  case isTrue hdeny =>
    refine iff_of_false ?_ fun h => ?_
    · rintro ⟨_, -, h⟩
      exact not_mem_await hdenied h
    · have hboth : "deny" = "approve" := hdeny.symm.trans (congrArg Prod.fst h.1)
      exact absurd hboth (by decide)
  case isFalse =>
    split
    case isTrue happrove =>
      subst happrove
      constructor
      · rintro ⟨_, hok, h⟩
        obtain ⟨rfl, htold⟩ := approving_iff.1 h
        exact ⟨rfl, hok, htold⟩
      · rintro ⟨hnamed, hok, htold⟩
        exact ⟨(), hok, approving_iff.2 ⟨congrArg Prod.snd hnamed, htold⟩⟩
    case isFalse hneither =>
      refine iff_of_false ?_ fun h => hneither (congrArg Prod.fst h.1)
      rintro ⟨_, -, h⟩
      exact List.not_mem_nil h

end Handlers

/-! ## Runs -/

namespace BotRun

variable {W : Type}

/-- The account had the bot start the run, by an earlier message. -/
def Started (r : BotRun W) (k : ℕ) (tid : ℤ) (runId : String) : Prop :=
  ∃ j < k, ∃ message, r.updates[j]? = some (.message message) ∧ message.fromId = some tid ∧
    ∃ w scenario instruction budget summary, r.Calls j w (.run scenario instruction budget) ∧
      (r.outside.answer w (.run scenario instruction budget)).1 = .ok summary ∧
      summary.runId = runId

/-- An earlier press denied the run. -/
def Denied (r : BotRun W) (k : ℕ) (runId : String) : Prop :=
  ∃ j < k, ∃ cq, r.updates[j]? = some (.callbackQuery cq) ∧ cq.parts = ("deny", runId)

/-- The account may approve the run: it is on the allow-list, if there is one, and linked, the run is its
own, and nobody denied it. -/
structure Rightful (r : BotRun W) (k : ℕ) (w : W) (tid : ℤ) (runId : String) : Prop where
  allowed : r.settings.allows (some tid) = true
  linked : (r.outside.account w tid).isSome
  started : r.Started k tid runId
  notDenied : ¬ r.Denied k runId

/-- Every approval is for a press by an account that may approve. -/
def ApprovesRightfully (r : BotRun W) : Prop :=
  ∀ k w runId, r.Calls k w (.approveRun runId) →
    ∃ cq, r.updates[k]? = some (.callbackQuery cq) ∧ r.Rightful k w cq.fromId runId

/-- The button that approves is pressed only by accounts that may approve; a press the bot cannot answer
does not count. -/
def PressedRightfully (r : BotRun W) : Prop :=
  ∀ k cq runId w, r.updates[k]? = some (.callbackQuery cq) → cq.parts = ("approve", runId) →
    r.outside.answered (r.before k) cq = some w → r.Rightful k w cq.fromId runId

/-- The calls that approve are those for the presses that are answered. -/
theorem calls_approve_iff {r : BotRun W} {k : ℕ} {w : W} {runId : String} :
    r.Calls k w (.approveRun runId) ↔ ∃ cq, r.updates[k]? = some (.callbackQuery cq) ∧
      cq.parts = ("approve", runId) ∧ r.outside.answered (r.before k) cq = some w := by
  constructor
  · rintro ⟨update, hupdate, hcall⟩
    cases update with
    | message message =>
        have honly := only_handleMessage r.upper r.settings message
        rw [handleUpdate] at hcall
        generalize handleMessage r.upper r.settings message = program at honly hcall
        exact (honly.trace hcall).elim
    | callbackQuery cq => exact ⟨cq, hupdate, approves_iff.1 hcall⟩
    | other => exact absurd hcall List.not_mem_nil
  · rintro ⟨cq, hupdate, hpress⟩
    exact ⟨_, hupdate, approves_iff.2 hpress⟩

end BotRun

end AgentPay.Bot

namespace AgentPay.Properties

open AgentPay.Library AgentPay.Gateway AgentPay.Bot

/-- Runs are started only for accounts that are on the allow-list, if there is one, and that the control
plane says are linked. -/
theorem runs_of_linked {W : Type} (r : BotRun W) {k : ℕ} {w : W}
    {scenario instruction budget : String} (h : r.Calls k w (.run scenario instruction budget)) :
    ∃ message, r.updates[k]? = some (.message message) ∧ r.settings.allows message.fromId = true ∧
      ∃ userId, (r.outside.answer (r.before k) (.whoami message.fromId)).1 = .ok (some userId) ∧
        userId ≠ "" := by
  obtain ⟨update, hupdate, hcall⟩ := h
  cases update with
  | message message =>
      refine ⟨message, hupdate, ?_⟩
      have hcases := handleMessage_cases r.upper r.settings message
      rw [handleUpdate] at hcall
      generalize handleMessage r.upper r.settings message = program at hcases hcall
      rcases hcases with honly | ⟨hallows, after, rfl, hafter⟩
      · exact (honly.trace hcall).elim
      · refine ⟨hallows, ?_⟩
        rcases Prog.mem_trace_bind.1 hcall with hwhoami | ⟨userId, hanswer, hrest⟩
        · cases (Prod.mk.inj (List.mem_singleton.1 hwhoami)).2
        · rcases hafter userId with honly | ⟨hlinked, -⟩
          · exact (honly.trace hrest).elim
          · cases userId with
            | none => exact absurd rfl hlinked
            | some userId => exact ⟨userId, hanswer, hlinked⟩
  | callbackQuery cq => exact ((only_handleCallback cq).trace hcall).elim
  | other => exact absurd hcall List.not_mem_nil

/-- Only the right person approves when only the right person presses: in every run of the polling loop,
over any updates and whatever is answered to the bot, each approval is for a press by an account that
is on the allow-list, if there is one, that is linked and that had the bot start the run, with no
press before that denied it, if and only if every press of the button that approves, as long as the
bot can answer it, is by such an account. -/
theorem approvals_rightful_iff {W : Type} (r : BotRun W) :
    r.ApprovesRightfully ↔ r.PressedRightfully := by
  constructor
  · intro h k cq runId w hupdate hparts hanswered
    obtain ⟨cq', hupdate', hrightful⟩ :=
      h k w runId (BotRun.calls_approve_iff.2 ⟨cq, hupdate, hparts, hanswered⟩)
    rw [hupdate] at hupdate'
    cases hupdate'
    exact hrightful
  · intro h k w runId hcall
    obtain ⟨cq, hupdate, hparts, hanswered⟩ := BotRun.calls_approve_iff.1 hcall
    exact ⟨cq, hupdate, h k cq runId w hupdate hparts hanswered⟩

/-- Telegram answers, and so do the services: account 7 is linked, and every run needs approval. -/
def obliging : Outside Unit where
  answer _ op := (match op with
    | .sendMessage .. | .answerCallbackQuery _ => .ok ()
    | .whoami tid => .ok (if tid = some 7 then some "user_ada" else none)
    | .linkCode .. => .ok (false, "unknown link code")
    | .run .. | .approveRun _ => .ok { runId := "run_1", decision := some "REQUIRE_APPROVAL" }, ())
  account _ tid := if tid = 7 then some "user_ada" else none

/-- Account 7, the only one on the allow-list, asks for a purchase. -/
def asked (presses : List Update) : BotRun Unit where
  upper := id
  settings := { allowlist := ["7"] }
  outside := obliging
  start := ()
  updates := .message { chatId := 7, fromId := some 7, text := some "buy coffee" } :: presses

/-- A press is an update by an account. -/
def press (tid : ℤ) (data : String) : Update := .callbackQuery { id := "cq", fromId := tid, data }

/-- An account that is not on the allow-list and not linked presses the button, and the run is approved; an
account denies its run and presses the other button after that, and the run is approved too. -/
theorem stranger_approves :
    ((asked [press 8 "approve:run_1"]).Calls 1 () (.approveRun "run_1") ∧
      ¬ (asked [press 8 "approve:run_1"]).ApprovesRightfully) ∧
    (asked [press 7 "deny:run_1", press 7 "approve:run_1"]).Calls 2 () (.approveRun "run_1") ∧
      ¬ (asked [press 7 "deny:run_1", press 7 "approve:run_1"]).ApprovesRightfully := by
  have hstranger : (asked [press 8 "approve:run_1"]).Calls 1 () (.approveRun "run_1") :=
    BotRun.calls_approve_iff.2 ⟨_, rfl, by decide, rfl⟩
  have hdenied : (asked [press 7 "deny:run_1", press 7 "approve:run_1"]).Calls 2 ()
      (.approveRun "run_1") := BotRun.calls_approve_iff.2 ⟨_, rfl, by decide, rfl⟩
  refine ⟨⟨hstranger, fun h => ?_⟩, hdenied, fun h => ?_⟩
  · obtain ⟨cq, hupdate, hrightful⟩ := h 1 () "run_1" hstranger
    cases hupdate
    exact absurd hrightful.allowed (by decide)
  · obtain ⟨cq, hupdate, hrightful⟩ := h 2 () "run_1" hdenied
    cases hupdate
    exact hrightful.notDenied ⟨1, by decide, _, rfl, by decide⟩

end AgentPay.Properties
