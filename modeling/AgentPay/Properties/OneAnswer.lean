import AgentPay.Gateway.Replays
import AgentPay.Properties.ApprovalSpent
import AgentPay.Properties.Authority
import AgentPay.Properties.Fingerprints
import AgentPay.Properties.Statements

/-!
# One answer for one idempotency key

However requests interleave and whatever is lost in between, an answer that does not block carries
the row of its user and idempotency key, whether it is fresh or the replay of a stored one
(`answers_match_rows`). Two such answers under one key therefore name one payment, with one decision
and for the same reasons, and only one of them is fresh (`one_answer_per_key`). The digest of the
payload is assumed to have no collisions. A replay repeats the answer given to the request it
replays, and does nothing else (`replays_repeat_an_answer`).
-/

set_option autoImplicit false

namespace AgentPay.Properties

open AgentPay.Library AgentPay.Library.Machine AgentPay.Gateway

/-! ## The row of an answer -/

/-- The answer to the intent is that of the row. -/
structure AnswerOf (row : Transaction) (intent : PaymentIntent) (r : DecisionResponse) : Prop where
  userId : row.userId = intent.userId
  idempotencyKey : row.idempotencyKey = intent.idempotencyKey
  id : r.paymentAuthorizationId = row.paymentAuthorizationId
  decision : r.decision = row.decision
  reasonCodes : r.reasonCodes = row.reasonCodes

/-- A payload hash determines the user. -/
theorem userId_of_payloadHash {R : Runtime} (hsha : Function.Injective R.sha256)
    {i j : PaymentIntent} (h : i.payloadHash R = j.payloadHash R) : i.userId = j.userId := by
  have htext : ∀ k : PaymentIntent, k.payloadHash R =
      R.sha256 (Json.dumps (Json.compact Json.ratText)
        (.obj [("user_id", .str k.userId), ("agent_id", .str k.agentId),
          ("merchant_id", .str k.merchantId), ("amount", .str k.amount.amount.str),
          ("currency", .str k.currency), ("cart_hash", .str (k.cartHash R))])) := fun _ => rfl
  rw [htext, htext] at h
  have hcanon := Json.dumps_injective Json.floatText_ratText (hsha h)
  -- the keys are distinct, so the field of one text is that of the other
  have hmem : ("user_id", Json.str i.userId) ∈ Json.sortKeys (Json.canonFields
      [("user_id", .str j.userId), ("agent_id", .str j.agentId),
        ("merchant_id", .str j.merchantId), ("amount", .str j.amount.amount.str),
        ("currency", .str j.currency), ("cart_hash", .str (j.cartHash R))]) := by
    rw [Json.canon, Json.canon, Json.obj.injEq] at hcanon
    rw [← hcanon, Json.mem_sortKeys]
    simp [Json.canonFields, Json.canon]
  rw [Json.mem_sortKeys] at hmem
  simpa [Json.canonFields, Json.canon] using hmem

section Runs

variable {R : Runtime} {D : Discipline} {c : Config}

/-- The transaction whose row a request inserted is that of its intent. -/
theorem intent_of_inserted (hc : Reachable (machine R) D c) {tid : ℕ} {thread : RequestThread}
    (ht : c.threads[tid]? = some thread) {intent : PaymentIntent} {credential : Credential}
    {execute : Bool} (hjob : thread.job = .paymentIntent intent credential execute)
    {row : Transaction} (hseen : ⟨.insertTransaction row, .ok ()⟩ ∈ seenBy tid c.log) :
    row.userId = intent.userId ∧ row.idempotencyKey = intent.idempotencyKey := by
  obtain ⟨s, hs⟩ := session_of_seen hc hseen
  have hsound := session_sound hc hs
  obtain ⟨txn, verdict, risk, t, htxn, -, rfl⟩ := hsound.recorded row (row_of_seen hc hs hseen)
  obtain ⟨intent', hcanonical⟩ := hsound.canonical txn htxn
  have hintent := (intent_of_job hs ht).symm.trans hcanonical.ofIntent
  rw [hjob] at hintent
  cases hintent
  exact ⟨hcanonical.userId, hcanonical.idempotencyKey⟩

/-- Rows that are no blocks, under one user and key, were inserted by one request, as one row. -/
theorem one_inserted (hc : Reachable (machine R) D c) {tid tid' : ℕ} {row row' : Transaction}
    (h : ⟨.insertTransaction row, .ok ()⟩ ∈ seenBy tid c.log)
    (h' : ⟨.insertTransaction row', .ok ()⟩ ∈ seenBy tid' c.log)
    (hd : row.decision ≠ .block) (hd' : row'.decision ≠ .block)
    (huser : row.userId = row'.userId) (hkey : row.idempotencyKey = row'.idempotencyKey) :
    tid = tid' ∧ row = row' := by
  obtain ⟨s, hs⟩ := session_of_seen hc h
  obtain ⟨s', hs'⟩ := session_of_seen hc h'
  have hrow := row_of_seen hc hs h
  have hrow' := row_of_seen hc hs' h'
  by_cases htid : tid = tid'
  · subst htid
    cases hs.symm.trans hs'
    exact ⟨rfl, Option.some.inj (hrow.symm.trans hrow')⟩
  · -- two rows under one key that are no blocks would break the unique index
    have hclash := rows_never_clash hc htid hs hs' hrow hrow'
    exact absurd hclash (Bool.not_eq_false _ ▸ decide_eq_true ⟨hd, hd', huser, hkey⟩)

/-! ## Answers -/

/-- What a response carries is the row its request inserted. -/
theorem answerOf_of_carries (hc : Reachable (machine R) D c) {tid : ℕ} {thread : RequestThread}
    (ht : c.threads[tid]? = some thread) {intent : PaymentIntent} {credential : Credential}
    {execute : Bool} (hjob : thread.job = .paymentIntent intent credential execute)
    {txn : CanonicalTransaction} {r : DecisionResponse} (h : Carries (seenBy tid c.log) txn r) :
    ∃ row, ⟨.insertTransaction row, .ok ()⟩ ∈ seenBy tid c.log ∧ AnswerOf row intent r := by
  obtain ⟨hid, verdict, ⟨risk, createdAt, hseen⟩, hdecision, hreasons⟩ := h
  obtain ⟨huser, hkey⟩ := intent_of_inserted hc ht hjob hseen
  exact ⟨_, hseen, huser, hkey, hid, hdecision, hreasons⟩

/-- The answer was stored by this request, under its key and payload, and carries its row. -/
structure StoredBy (R : Runtime) (c : Config) (author : ℕ) (origin : PaymentIntent)
    (key payloadHash : String) (stored : DecisionResponse) : Prop where
  request : ∃ credential execute, c.threads[author]?.map Thread.job =
    some (.paymentIntent origin credential execute)
  named : idemKey origin.userId origin.idempotencyKey = key
  payload : origin.payloadHash R = payloadHash
  seen : ∃ ex answer, ⟨.set key (.idempotencyRecord payloadHash stored) ex, answer⟩ ∈
    seenBy author c.log
  fresh : stored.replayed = false
  row : ∃ row, ⟨.insertTransaction row, .ok ()⟩ ∈ seenBy author c.log ∧ AnswerOf row origin stored

/-- A record that was read was stored by a request. -/
theorem storedBy_of_get (hstart : ∀ w, D.initial w → w.kv = []) (hc : Reachable (machine R) D c)
    {tid : ℕ} {key payloadHash : String} {stored : DecisionResponse} (hkey : ¬ CommonKey key)
    (hget : ⟨.get key, .ok (some (.idempotencyRecord payloadHash stored))⟩ ∈ seenBy tid c.log) :
    ∃ author origin, StoredBy R c author origin key payloadHash stored := by
  obtain ⟨newer, choice, older, job, c₀, hlog, hmoment⟩ := moment_of_seen hc hget
  obtain ⟨newer', ⟨author, op, choice', answer⟩, older', ex, rfl, hop⟩ :=
    stored_of_get hstart hmoment
  subst hop
  have hseen :
      ⟨.set key (.idempotencyRecord payloadHash stored) ex, answer⟩ ∈ seenBy author c.log := by
    refine mem_seenBy.2 ⟨⟨author, _, choice', answer⟩, ?_, rfl, rfl⟩
    rw [hlog]
    exact List.mem_append_right _ (List.mem_cons_of_mem _
      (List.mem_append_right _ List.mem_cons_self))
  obtain ⟨_, _, _, job', c₁, -, hstored⟩ := moment_of_seen hc hseen
  obtain ⟨next, hpending⟩ := hstored.pending
  obtain ⟨thread, hthread, hjob⟩ := hstored.leads.job hpending
  have hpermitted := hstored.permitted
  cases job' with
  | paymentIntent origin credential execute =>
      -- the operation is none beside the work, so it is the request's own
      obtain ⟨txn, hw, hidem, hhash, -, -, -, -, hfresh⟩ := hpermitted.resolve_left hkey
      obtain ⟨c₂, h₂⟩ := instant_of_seen hc hseen
      obtain ⟨txn', -, -, hcarries⟩ := h₂.grounded
      refine ⟨author, origin, ⟨credential, execute, ?_⟩, ?_, ?_, ⟨ex, answer, hseen⟩,
        hfresh.replayed, answerOf_of_carries hc hthread hjob (hcarries.extends h₂.seen)⟩
      · rw [hthread, Option.map_some, hjob]
      · rw [hidem, hw.idemKey_eq]
      · rw [hhash, hw.payloadHash]
  | _ => exact absurd hpermitted hkey

/-- An answer that does not block carries a row that was inserted, by the request itself if it is
fresh. -/
theorem row_of_answer (hsha : Function.Injective R.sha256)
    (hstart : ∀ w, D.initial w → w.kv = []) (hc : Reachable (machine R) D c) {tid : ℕ}
    {intent : PaymentIntent} {credential : Credential} {execute : Bool} {r : DecisionResponse}
    (ht : c.threads[tid]? =
      some ⟨.paymentIntent intent credential execute, .ret (.ok (.decision r))⟩)
    (hd : r.decision ≠ .block) : ∃ author row,
      ⟨.insertTransaction row, .ok ()⟩ ∈ seenBy author c.log ∧ AnswerOf row intent r ∧
        (r.replayed = false → author = tid) := by
  have hdecided : Decided R intent credential (seenBy tid c.log) r := hc.ended (job_asks R) ht
  have hrecorded : Recorded r (seenBy tid c.log) :=
    hc.ended (G := fun _ => Grounded) (job_grounded R) ht
  cases hdecided with
  | refused hrefusal _ => exact absurd hrefusal.decision hd
  | @replayed txn stored _ hw hget =>
      obtain ⟨author, origin, hstored⟩ :=
        storedBy_of_get hstart hc (not_commonKey (idemKey_mem txn)) hget
      obtain ⟨row, hrow, hof⟩ := hstored.row
      -- the key joins user and idempotency key; the payload fixes the user, and so the rest of it
      have hkey := hstored.named
      have huser := userId_of_payloadHash hsha (hstored.payload.trans hw.payloadHash)
      rw [hw.idemKey_eq, huser] at hkey
      have hidem : origin.idempotencyKey = intent.idempotencyKey :=
        (String.append_right_inj _).1 hkey
      refine ⟨author, row, hrow, ⟨hof.userId.trans huser, hof.idempotencyKey.trans hidem, hof.id,
        hof.decision, hof.reasonCodes⟩, fun h => ?_⟩
      cases h
  | fresh _ _ hfresh =>
      obtain ⟨txn, hcarries⟩ := hrecorded.row hfresh.replayed hd
      obtain ⟨row, hrow, hof⟩ := answerOf_of_carries hc ht rfl hcarries
      exact ⟨tid, row, hrow, hof, fun _ => rfl⟩

/-- **An answer that does not block, fresh or replayed, is that of a row of its user and key.** -/
theorem answers_match_rows (hsha : Function.Injective R.sha256)
    (hstart : ∀ w, D.initial w → w.kv = []) (hc : Reachable (machine R) D c) {tid : ℕ}
    {intent : PaymentIntent} {credential : Credential} {execute : Bool} {r : DecisionResponse}
    (ht : c.threads[tid]? =
      some ⟨.paymentIntent intent credential execute, .ret (.ok (.decision r))⟩)
    (hd : r.decision ≠ .block) : ∃ row ∈ c.world.transactions, AnswerOf row intent r := by
  obtain ⟨author, row, hrow, hof, -⟩ := row_of_answer hsha hstart hc ht hd
  obtain ⟨r', hr', heq⟩ := List.mem_map.1 (row_entered hc hrow)
  have hfield : ∀ {α : Type} (field : Transaction → α),
      field r'.asInserted = field row.asInserted :=
    fun field => congrArg field heq
  exact ⟨r', hr', (hfield Transaction.userId).trans hof.userId,
    (hfield Transaction.idempotencyKey).trans hof.idempotencyKey,
    hof.id.trans (hfield Transaction.paymentAuthorizationId).symm,
    hof.decision.trans (hfield Transaction.decision).symm,
    hof.reasonCodes.trans (hfield Transaction.reasonCodes).symm⟩

/-- **Answers under one user and key that do not block are one answer, given once and then
replayed.** -/
theorem one_answer_per_key (hsha : Function.Injective R.sha256)
    (hstart : ∀ w, D.initial w → w.kv = []) (hc : Reachable (machine R) D c) {tid tid' : ℕ}
    {intent intent' : PaymentIntent} {credential credential' : Credential} {execute execute' : Bool}
    {r r' : DecisionResponse}
    (ht : c.threads[tid]? =
      some ⟨.paymentIntent intent credential execute, .ret (.ok (.decision r))⟩)
    (ht' : c.threads[tid']? =
      some ⟨.paymentIntent intent' credential' execute', .ret (.ok (.decision r'))⟩)
    (huser : intent.userId = intent'.userId) (hkey : intent.idempotencyKey = intent'.idempotencyKey)
    (hd : r.decision ≠ .block) (hd' : r'.decision ≠ .block) :
    r.paymentAuthorizationId = r'.paymentAuthorizationId ∧ r.decision = r'.decision ∧
      r.reasonCodes = r'.reasonCodes ∧ (r.replayed = false → r'.replayed = false → tid = tid') := by
  obtain ⟨author, row, hrow, hof, hown⟩ := row_of_answer hsha hstart hc ht hd
  obtain ⟨author', row', hrow', hof', hown'⟩ := row_of_answer hsha hstart hc ht' hd'
  obtain ⟨rfl, rfl⟩ := one_inserted hc hrow hrow' (hof.decision ▸ hd) (hof'.decision ▸ hd')
    (hof.userId.trans (huser.trans hof'.userId.symm))
    (hof.idempotencyKey.trans (hkey.trans hof'.idempotencyKey.symm))
  exact ⟨hof.id.trans hof'.id.symm, hof.decision.trans hof'.decision.symm,
    hof.reasonCodes.trans hof'.reasonCodes.symm,
    fun hfresh hfresh' => (hown hfresh).symm.trans (hown' hfresh')⟩

/-- **A replay repeats the answer given to the request it replays, and does nothing else.** The
answer that was given is another one only if that request failed to release its locks. -/
theorem replays_repeat_an_answer (hstart : ∀ w, D.initial w → w.kv = [])
    (hc : Reachable (machine R) D c) {tid : ℕ} {intent : PaymentIntent} {credential : Credential}
    {execute : Bool} {r : DecisionResponse} (ht : c.threads[tid]? =
      some ⟨.paymentIntent intent credential execute, .ret (.ok (.decision r))⟩)
    (hreplayed : r.replayed = true) : (∀ e ∈ seenBy tid c.log, Passive e.1) ∧
      ∃ (author : ℕ) (origin : PaymentIntent) (credential' : Credential) (execute' : Bool)
        (stored : DecisionResponse), c.threads[author]?.map Thread.job =
          some (.paymentIntent origin credential' execute') ∧ SameRecord R origin intent ∧
        stored.replayed = false ∧ r = replayOf stored ∧
        ∀ given, c.threads[author]? = some
          ⟨.paymentIntent origin credential' execute', .ret (.ok (.decision given))⟩ →
          given.replayed = false ∧
            (given.reasonCodes ≠ ["CONCURRENT_REQUEST_IN_FLIGHT"] → given = stored) := by
  have hrepeats : ∀ {tid intent credential execute r}, c.threads[tid]? =
      some ⟨.paymentIntent intent credential execute, .ret (.ok (.decision r))⟩ →
      Repeats r (seenBy tid c.log) := fun ht =>
    hc.ended (G := fun _ _ _ => True) (job_repeats R) ht
  have hdecided : Decided R intent credential (seenBy tid c.log) r := hc.ended (job_asks R) ht
  refine ⟨(hrepeats ht).passive hreplayed, ?_⟩
  cases hdecided with
  | refused hrefusal _ => cases hrefusal.replayed.symm.trans hreplayed
  | fresh _ _ hfresh => cases hfresh.replayed.symm.trans hreplayed
  | @replayed txn stored _ hw hget =>
      have hkey := not_commonKey (idemKey_mem txn)
      obtain ⟨author, origin, hstored⟩ := storedBy_of_get hstart hc hkey hget
      obtain ⟨credential', execute', hjob⟩ := hstored.request
      refine ⟨author, origin, credential', execute', stored, hjob, ⟨?_, ?_⟩, hstored.fresh, rfl,
        fun given hgiven => ?_⟩
      · rw [hstored.named, hw.idemKey_eq]
      · rw [hstored.payload, hw.payloadHash]
      · obtain ⟨ex, answer, hseen⟩ := hstored.seen
        -- a request that stored an answer did not replay one
        have hfresh : given.replayed = false := by
          rw [← Bool.not_eq_true]
          exact fun h => ((hrepeats hgiven).passive h _ hseen).elim
        exact ⟨hfresh, fun hcodes =>
          ((hrepeats hgiven).stored hfresh hcodes _ _ _ _ _ hseen hkey).symm⟩

end Runs

/-! ## A run -/

/-- A request that is allowed, and then made once more. -/
def allowedTwice : List (Label Job Env Outcome) :=
  [Scenario.request Scenario.firstOrder false, Scenario.request Scenario.firstOrder false] ++
    steps 0 (Scenario.toInsertion ++ oks 28) ++ steps 1 (oks 18)

/-- What its answers have in common. -/
def sameRequest (a a' : PaymentIntent × DecisionResponse) : Bool :=
  a.1.userId == a'.1.userId && a.1.idempotencyKey == a'.1.idempotencyKey &&
    decide (a.2.decision = .allow) && decide (a'.2.decision = .allow) && a'.2.replayed

theorem allowedTwice_reachable : ∃ (c : Config) (intent intent' : PaymentIntent)
    (r r' : DecisionResponse), Reachable (machine Scenario.runtime) fromScratch c ∧
      answeredBy 0 c = some (intent, r) ∧ answeredBy 1 c = some (intent', r') ∧
      intent.userId = intent'.userId ∧ intent.idempotencyKey = intent'.idempotencyKey ∧
      r.decision = .allow ∧ r'.decision = .allow ∧ r'.replayed = true := by
  have hrun : executes Scenario.runtime {} (Scenario.world (Scenario.policy "u" 200 10))
      allowedTwice (fun c =>
        ((answeredBy 0 c).any fun a => (answeredBy 1 c).any (sameRequest a)) = true) = true := by
    decide +kernel
  obtain ⟨c, hc, hanswers⟩ := exists_reachable_checked fromScratch_checked (untouched_world _) hrun
  obtain ⟨⟨intent, r⟩, h, hanswers⟩ := Option.any_eq_true _ _ |>.1 hanswers
  obtain ⟨⟨intent', r'⟩, h', hsame⟩ := Option.any_eq_true _ _ |>.1 hanswers
  simp only [sameRequest, Bool.and_eq_true, beq_iff_eq, decide_eq_true_eq] at hsame
  obtain ⟨⟨⟨⟨huser, hkey⟩, hallow⟩, hallow'⟩, hreplayed⟩ := hsame
  exact ⟨c, intent, intent', r, r', hc, h, h', huser, hkey, hallow, hallow', hreplayed⟩

theorem answers_match_rows_replayed : ∃ (c : Config) (intent : PaymentIntent)
    (r : DecisionResponse), answeredBy 1 c = some (intent, r) ∧ r.replayed = true ∧
      ∃ row ∈ c.world.transactions, AnswerOf row intent r := by
  obtain ⟨c, -, intent, -, r, hc, -, hr, -, -, -, hallow, hreplayed⟩ := allowedTwice_reachable
  obtain ⟨credential, execute, ht⟩ := answeredBy_eq_some hr
  exact ⟨c, intent, r, hr, hreplayed, answers_match_rows (fun _ _ h => h)
    (fun _ (h : Untouched _) => h.kv) hc ht (by rw [hallow]; decide)⟩

theorem one_answer_per_key_replayed : ∃ (c : Config) (intent intent' : PaymentIntent)
    (r r' : DecisionResponse), answeredBy 0 c = some (intent, r) ∧
      answeredBy 1 c = some (intent', r') ∧
      r.paymentAuthorizationId = r'.paymentAuthorizationId ∧ r.decision = r'.decision ∧
      r.reasonCodes = r'.reasonCodes ∧ (r.replayed = false → r'.replayed = false → 0 = 1) := by
  obtain ⟨c, intent, intent', r, r', hc, hr, hr', huser, hkey, hallow, hallow', -⟩ :=
    allowedTwice_reachable
  obtain ⟨credential, execute, ht⟩ := answeredBy_eq_some hr
  obtain ⟨credential', execute', ht'⟩ := answeredBy_eq_some hr'
  exact ⟨c, intent, intent', r, r', hr, hr', one_answer_per_key (fun _ _ h => h)
    (fun _ (h : Untouched _) => h.kv) hc ht ht' huser hkey (by rw [hallow]; decide)
    (by rw [hallow']; decide)⟩

theorem replays_repeat_an_answer_allowed : ∃ (c : Config) (intent : PaymentIntent)
    (r : DecisionResponse), answeredBy 1 c = some (intent, r) ∧
      (∀ e ∈ seenBy 1 c.log, Passive e.1) ∧
      ∃ (author : ℕ) (origin : PaymentIntent) (credential' : Credential) (execute' : Bool)
        (stored : DecisionResponse), c.threads[author]?.map Thread.job =
          some (.paymentIntent origin credential' execute') ∧
        SameRecord Scenario.runtime origin intent ∧ stored.replayed = false ∧
        r = replayOf stored ∧
        ∀ given, c.threads[author]? = some
          ⟨.paymentIntent origin credential' execute', .ret (.ok (.decision given))⟩ →
          given.replayed = false ∧
            (given.reasonCodes ≠ ["CONCURRENT_REQUEST_IN_FLIGHT"] → given = stored) := by
  obtain ⟨c, -, intent, -, r, hc, -, hr, -, -, -, -, hreplayed⟩ := allowedTwice_reachable
  obtain ⟨credential, execute, ht⟩ := answeredBy_eq_some hr
  exact ⟨c, intent, r, hr,
    replays_repeat_an_answer (fun _ (h : Untouched _) => h.kv) hc ht hreplayed⟩

end AgentPay.Properties
