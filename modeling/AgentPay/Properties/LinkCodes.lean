import AgentPay.ControlPlane.Telegram

/-!
# Link codes

A run of issues and redemptions, interleaved statement by statement. As long as every commit finds what
its transaction read, each code is redeemed once and in time, for the account it was issued for, and
an account has one live code at most (`codes_single_use`). Nothing in the database enforces it: two
redemptions that both read a code before either commits both succeed (`code_redeemed_twice`).
-/

set_option autoImplicit false

namespace AgentPay.Properties

open AgentPay.Library AgentPay.Library.Machine AgentPay.Gateway AgentPay.ControlPlane

/-! ## What the transactions commit -/

/-- A redemption commits a row that was read as unused, and a link to the account of that row. -/
def CommitsRead : LinkOp → Prop
  | .commitRedeem row _ link _ => row.usedAt = none ∧ link.userId = row.userId
  | _ => True

theorem only_issueCode (userId : String) : (issueCode userId).Only CommitsRead := by
  refine Prog.Only.bind ((Prog.only_perform _ _).2 trivial) fun letters => ?_
  refine Prog.Only.bind ((Prog.only_perform _ _).2 trivial) fun now => ?_
  refine Prog.Only.bind ((Prog.only_perform _ _).2 trivial) fun stale => ?_
  exact Prog.Only.bind ((Prog.only_perform _ _).2 trivial) fun _ => trivial

theorem only_redeemCode (upper : List Char → List Char) (code telegramId : String) :
    (redeemCode upper code telegramId).Only CommitsRead := by
  refine Prog.Only.bind ((Prog.only_perform _ _).2 trivial) fun row => ?_
  cases row with
  | none => trivial
  | some row =>
      simp only
      split
      case isTrue => trivial
      case isFalse hunused =>
        refine Prog.Only.bind ((Prog.only_perform _ _).2 trivial) fun now => ?_
        split
        · trivial
        · refine Prog.Only.bind ((Prog.only_perform _ _).2 trivial) fun usedAt => ?_
          refine Prog.Only.bind ((Prog.only_perform _ _).2 trivial) fun linkedAt => ?_
          refine Prog.Only.bind ((Prog.only_perform _ _).2 trivial) fun linked => ?_
          have hread : row.usedAt = none := by
            rw [← Option.not_isSome_iff_eq_none]
            exact hunused
          exact Prog.Only.bind ((Prog.only_perform _ _).2 ⟨hread, rfl⟩) fun _ => trivial

/-- The protocol of the commits, which remembers nothing. -/
def committing : Protocol LinkOp LinkOp.Val LinkExn Unit where
  guard _ op := CommitsRead op
  next s _ _ := s

theorem job_commits (upper : List Char → List Char) (job : LinkJob) :
    ((linking upper).start job).Follows committing () (fun _ _ => True) := by
  have honly : ((linking upper).start job).Only CommitsRead := by
    cases job with
    | issueCode userId => exact only_issueCode userId
    | redeemCode code telegramId => exact only_redeemCode upper code telegramId
  exact (Prog.Follows.of_only_still (fun op hop => ⟨hop, fun _ => rfl⟩) honly).mono
    fun _ _ _ => trivial

/-! ## The invariant -/

/-- The code is unused and has not expired. -/
def Live (now : Time) (row : LinkCode) : Prop :=
  row.usedAt = none ∧ now ≤ row.createdAt + codeTtl

instance (now : Time) (row : LinkCode) : Decidable (Live now row) :=
  inferInstanceAs (Decidable (_ ∧ _))

/-- The row is that of a code that was issued. -/
def WasIssued (w : LinkWorld) (code userId : String) (createdAt : Time) : Prop :=
  ∃ row ∈ w.issued, row.code = code ∧ row.userId = userId ∧ row.createdAt = createdAt

/-- What holds of the tables while every commit finds what its transaction read. -/
structure Orderly (w : LinkWorld) : Prop where
  keys : (w.codes.map LinkCode.code).Nodup
  issued : ∀ r ∈ w.codes, WasIssued w r.code r.userId r.createdAt
  spent : ∀ x ∈ w.redemptions, ∀ r ∈ w.codes, r.code = x.code → r.usedAt ≠ none
  once : (w.redemptions.map Redemption.code).Nodup
  bound : ∀ x ∈ w.redemptions, ∃ createdAt, WasIssued w x.code x.userId createdAt ∧
    x.committedAt ≤ createdAt + codeTtl
  links : ∀ l ∈ w.links, ∃ x ∈ w.redemptions, x.telegramId = l.telegramId ∧ x.userId = l.userId
  latest : ∀ r ∈ w.codes, ∀ r' ∈ w.codes, r.userId = r'.userId → Live w.clock r →
    Live w.clock r' → r = r'

/-- Every commit finds what its transaction read: an issue deletes every live code of its account and
brings back no code that was redeemed, and a redemption finds its code, if it is still there, as it
was, and in time. -/
def undisturbed : LinkDiscipline where
  initial w := w.codes = [] ∧ w.links = [] ∧ w.issued = [] ∧ w.redemptions = []
  run c ev := match ev.op with
    | .commitIssue stale row =>
        (∀ r ∈ c.world.codes, r.userId = row.userId → Live c.world.clock r → r.code ∈ stale) ∧
          ∀ x ∈ c.world.redemptions, x.code ≠ row.code
    | .commitRedeem row _ _ _ =>
        (∀ r ∈ c.world.codes, r.code = row.code → r = row) ∧
          c.world.clock ≤ row.createdAt + codeTtl
    | _ => True

section Steps

variable {w : LinkWorld}

theorem Live.earlier {now now' : Time} {row : LinkCode} (h : Live now' row) (hle : now ≤ now') :
    Live now row := ⟨h.1, hle.trans h.2⟩

/-- A row found under a code is a row of the table, with that code. -/
theorem mem_of_row? {code : String} {r : LinkCode} (h : w.row? code = some r) :
    r ∈ w.codes ∧ r.code = code := by
  rw [LinkWorld.row?] at h
  exact ⟨List.mem_of_find?_eq_some h, of_decide_eq_true (List.find?_some h :)⟩

theorem Orderly.tick (h : Orderly w) (d : Time) : Orderly { w with clock := w.clock + d } :=
  { h with
    latest := fun r hr r' hr' huser hlive hlive' => h.latest r hr r' hr' huser
      (hlive.earlier (Nat.le_add_right _ _)) (hlive'.earlier (Nat.le_add_right _ _)) }

/-- An issue leaves one live code to its account. -/
theorem Orderly.commitIssue (h : Orderly w) {stale : List String} {row : LinkCode}
    (hall : ∀ r ∈ w.codes, r.userId = row.userId → Live w.clock r → r.code ∈ stale)
    (hnew : ∀ x ∈ w.redemptions, x.code ≠ row.code) : Orderly (w.commitIssue stale row).1 := by
  rw [LinkWorld.commitIssue]
  split
  case isTrue => exact h
  case isFalse hfree =>
    have hkept : ∀ r ∈ w.codes.filter fun r => decide (r.code ∉ stale),
        r ∈ w.codes ∧ r.code ∉ stale := fun r hr =>
      ⟨(List.mem_filter.1 hr).1, of_decide_eq_true (List.mem_filter.1 hr).2⟩
    have hissued : ∀ {code userId createdAt}, WasIssued w code userId createdAt →
        WasIssued { w with
          codes := row :: w.codes.filter fun r => decide (r.code ∉ stale)
          issued := row :: w.issued } code userId createdAt := by
      rintro code userId createdAt ⟨r, hr, heq⟩
      exact ⟨r, List.mem_cons_of_mem _ hr, heq⟩
    -- a live code of the account among the rows that stay would have been deleted
    have hgone : ∀ r ∈ w.codes.filter fun r => decide (r.code ∉ stale), r.userId = row.userId →
        ¬ Live w.clock r := fun r hr huser hlive =>
      (hkept r hr).2 (hall r (hkept r hr).1 huser hlive)
    refine ⟨?_, ?_, ?_, h.once, ?_, h.links, ?_⟩
    · rw [List.map_cons, List.nodup_cons]
      refine ⟨fun hmem => hfree ?_, h.keys.sublist (List.filter_sublist.map _)⟩
      obtain ⟨r, hr, hcode⟩ := List.mem_map.1 hmem
      rw [LinkWorld.taken, List.any_eq_true]
      refine ⟨r, (hkept r hr).1, ?_⟩
      rw [Bool.and_eq_true, decide_eq_true_eq, decide_eq_true_eq]
      exact ⟨hcode, (hkept r hr).2⟩
    · intro r hr
      rcases List.mem_cons.1 hr with rfl | hr
      · exact ⟨r, List.mem_cons_self, rfl, rfl, rfl⟩
      · exact hissued (h.issued r (hkept r hr).1)
    · intro x hx r hr hcode
      rcases List.mem_cons.1 hr with rfl | hr
      · exact absurd hcode.symm (hnew x hx)
      · exact h.spent x hx r (hkept r hr).1 hcode
    · intro x hx
      obtain ⟨createdAt, hcreated, hle⟩ := h.bound x hx
      exact ⟨createdAt, hissued hcreated, hle⟩
    · intro r hr r' hr' huser hlive hlive'
      rcases List.mem_cons.1 hr with rfl | hold <;> rcases List.mem_cons.1 hr' with rfl | hold'
      · rfl
      · exact absurd hlive' (hgone r' hold' huser.symm)
      · exact absurd hlive (hgone r hold huser)
      · exact h.latest r (hkept r hold).1 r' (hkept r' hold').1 huser hlive hlive'

/-- A redemption that finds its code as it was read spends it. -/
theorem Orderly.commitRedeem (h : Orderly w) {row : LinkCode} {usedAt : Time} {link : TelegramLink}
    {linked : Bool} (hread : row.usedAt = none) (huser : link.userId = row.userId)
    (hsame : ∀ r ∈ w.codes, r.code = row.code → r = row)
    (htime : w.clock ≤ row.createdAt + codeTtl) :
    Orderly (w.commitRedeem row usedAt link linked).1 := by
  rw [LinkWorld.commitRedeem]
  split
  case isTrue => exact h
  case isFalse hfound =>
    split
    case isTrue => exact h
    case isFalse =>
      obtain ⟨r, hr⟩ : ∃ r, w.row? row.code = some r := by
        rw [← Option.isSome_iff_exists]
        cases hrow : w.row? row.code with
        | none =>
            rw [hrow] at hfound
            exact absurd rfl hfound
        | some r => rfl
      obtain ⟨hmem, hcode⟩ := mem_of_row? hr
      obtain rfl : r = row := hsame r hmem hcode
      -- marking the code keeps the key, the account and the age of every row
      have hmarked : ∀ r' ∈ w.codes.map fun r' =>
          if r'.code = r.code then { r' with usedAt := some usedAt } else r',
          ∃ r₀ ∈ w.codes, r'.code = r₀.code ∧ r'.userId = r₀.userId ∧
            r'.createdAt = r₀.createdAt ∧ (r'.usedAt = none → r' = r₀ ∧ r₀.code ≠ r.code) := by
        intro r' hr'
        obtain ⟨r₀, hr₀, rfl⟩ := List.mem_map.1 hr'
        refine ⟨r₀, hr₀, ?_⟩
        split
        case isTrue => exact ⟨rfl, rfl, rfl, fun hnone => nomatch hnone⟩
        case isFalse hne => exact ⟨rfl, rfl, rfl, fun _ => ⟨rfl, hne⟩⟩
      refine ⟨?_, ?_, ?_, ?_, ?_, ?_, ?_⟩
      · rw [List.map_map]
        have hcodes : (LinkCode.code ∘ fun r' : LinkCode =>
            if r'.code = r.code then { r' with usedAt := some usedAt } else r') = LinkCode.code := by
          funext r'
          rw [Function.comp_apply]
          split <;> rfl
        rw [hcodes]
        exact h.keys
      · intro r' hr'
        obtain ⟨r₀, hr₀, hcode', huser', hcreated', -⟩ := hmarked r' hr'
        rw [hcode', huser', hcreated']
        exact h.issued r₀ hr₀
      · intro x hx r' hr' hx' hnone
        obtain ⟨r₀, hr₀, -, -, -, hunused⟩ := hmarked r' hr'
        obtain ⟨rfl, hne⟩ := hunused hnone
        rcases List.mem_cons.1 hx with rfl | hx
        · exact hne hx'
        · exact h.spent x hx r' hr₀ hx' hnone
      · rw [List.map_cons, List.nodup_cons]
        refine ⟨fun hmem' => ?_, h.once⟩
        obtain ⟨x, hx, hx'⟩ := List.mem_map.1 hmem'
        exact h.spent x hx r hmem hx'.symm hread
      · intro x hx
        rcases List.mem_cons.1 hx with rfl | hx
        · exact ⟨r.createdAt, huser ▸ h.issued r hmem, htime⟩
        · exact h.bound x hx
      · intro l hl
        rcases List.mem_cons.1 hl with rfl | hl
        · exact ⟨_, List.mem_cons_self, rfl, rfl⟩
        · obtain ⟨x, hx, heq⟩ := h.links l (List.mem_filter.1 hl).1
          exact ⟨x, List.mem_cons_of_mem _ hx, heq⟩
      · intro r₁ hr₁ r₂ hr₂ huser' hlive₁ hlive₂
        obtain ⟨r₀, hr₀, -, -, -, hunused⟩ := hmarked r₁ hr₁
        obtain ⟨rfl, -⟩ := hunused hlive₁.1
        obtain ⟨r₀', hr₀', -, -, -, hunused'⟩ := hmarked r₂ hr₂
        obtain ⟨rfl, -⟩ := hunused' hlive₂.1
        exact h.latest r₁ hr₀ r₂ hr₀' huser' hlive₁ hlive₂

/-- An operation changes the database as it does when it completes, or not at all. -/
theorem perform_cases {w' : LinkWorld} {op : LinkOp} {o : LinkOutcome}
    {answer : Except LinkExn op.Val} (h : w.perform op o = some (w', answer)) :
    w' = w ∨ ∃ a, w.complete op = some (w', a) := by
  cases o with
  | ok => exact .inr ⟨answer, h⟩
  | letters letters =>
      cases op <;> first
        | (left; exact (Prod.mk.inj (Option.some.inj h)).1.symm)
        | cases h
  | fault e applied =>
      cases applied with
      | false => exact .inl (Prod.mk.inj (Option.some.inj h)).1.symm
      | true =>
          obtain ⟨p, hp, heq⟩ := Option.map_eq_some_iff.1 h
          exact .inr ⟨p.2, by rw [hp, ← (Prod.mk.inj heq).1]⟩

end Steps

/-- Link codes are single-use and latest-only while commits are undisturbed: in every run of issues and
redemptions in which each commit finds what its transaction read, no code is redeemed twice, every
redemption comes within ten minutes of the creation of its code and binds the Telegram id to the
account the code was issued for, and no account has two live codes. -/
theorem codes_single_use (upper : List Char → List Char) (c : LinkConfig)
    (hc : Reachable (linking upper) undisturbed c) :
    (c.world.redemptions.map Redemption.code).Nodup ∧
      (∀ x ∈ c.world.redemptions, ∃ createdAt, WasIssued c.world x.code x.userId createdAt ∧
        x.committedAt ≤ createdAt + codeTtl) ∧
      (∀ l ∈ c.world.links, ∃ x ∈ c.world.redemptions,
        x.telegramId = l.telegramId ∧ x.userId = l.userId) ∧
      ∀ r ∈ c.world.codes, ∀ r' ∈ c.world.codes, r.userId = r'.userId → Live c.world.clock r →
        Live c.world.clock r' → r = r' := by
  have horderly : Orderly c.world := by
    refine Reachable.invariant committing (fun _ => ()) (job_commits upper)
      (I := fun c => Orderly c.world) ?_ ?_ ?_ ?_ hc
    · rintro w ⟨hcodes, hlinks, hissued, hredemptions⟩
      constructor <;> simp [hcodes, hlinks, hredemptions]
    · exact fun _ _ _ ih _ _ => ih
    · exact fun _ d _ ih _ => ih.tick d
    · intro c tid s job op next o w answer _ ih _ hp _
      have hperform : c.world.perform op o = some (w, answer) := hp.perform
      rcases perform_cases hperform with rfl | ⟨a, hcomplete⟩
      · exact ih
      · have hguard : CommitsRead op := hp.guard
        have hfound := hp.discipline
        cases op with
        | commitIssue stale row =>
            have hworld : (c.world.commitIssue stale row).1 = w :=
              congrArg Prod.fst (Option.some.inj hcomplete)
            exact hworld ▸ ih.commitIssue hfound.1 hfound.2
        | commitRedeem row usedAt link linked =>
            have hworld : (c.world.commitRedeem row usedAt link linked).1 = w :=
              congrArg Prod.fst (Option.some.inj hcomplete)
            exact hworld ▸ ih.commitRedeem hguard.1 hguard.2 hfound.1 hfound.2
        | draw => cases hcomplete
        | _ =>
            cases hcomplete
            exact ih
  exact ⟨horderly.once, horderly.bound, horderly.links, horderly.latest⟩

/-- The steps of one issue under a draw. -/
def issueSteps (tid : ℕ) : List (Label LinkJob Time LinkOutcome) :=
  [.run tid (.letters fun _ => 0), .run tid .ok, .run tid .ok, .run tid .ok]

/-- The steps of a redemption up to its commit. -/
def redeemSteps (tid : ℕ) : List (Label LinkJob Time LinkOutcome) :=
  List.replicate 5 (.run tid .ok)

instance (c : LinkConfig) (ev : Machine.Event LinkOutcome LinkOp LinkOp.Val LinkExn) :
    Decidable (undisturbed.run c ev) :=
  match ev with
  | ⟨_, .commitIssue _ _, _, _⟩ => inferInstanceAs (Decidable (_ ∧ _))
  | ⟨_, .commitRedeem .., _, _⟩ => inferInstanceAs (Decidable (_ ∧ _))
  | ⟨_, .now, _, _⟩ | ⟨_, .draw, _, _⟩ | ⟨_, .selectUnused _, _, _⟩ | ⟨_, .getCode _, _, _⟩
  | ⟨_, .getLink _, _, _⟩ => inferInstanceAs (Decidable True)

/-- A code is issued and redeemed, one transaction after the other. -/
theorem codes_single_use_once : ∃ c : LinkConfig, Reachable (linking id) undisturbed c ∧
    c.world.redemptions = [⟨"LINK-AAAAAA", "111", "u", 0⟩] ∧
      (c.world.redemptions.map Redemption.code).Nodup := by
  have hrun : (((linking id).run { run := fun c ev => decide (undisturbed.run c ev) }
      { world := { clock := 0 } } ([.spawn (.issueCode "u")] ++ issueSteps 0 ++
        [.spawn (.redeemCode "LINK-AAAAAA" "111")] ++ redeemSteps 1 ++ [.run 1 .ok])).any fun c =>
          decide (c.world.redemptions = [⟨"LINK-AAAAAA", "111", "u", 0⟩])) = true := by
    decide +kernel
  obtain ⟨c, hc, hredemptions⟩ := Reachable.exists_of_run (D := undisturbed)
    ⟨fun _ _ => trivial, fun _ _ _ => trivial, fun _ _ h => of_decide_eq_true h⟩
    ⟨rfl, rfl, rfl, rfl⟩ hrun
  exact ⟨c, hc, hredemptions, (codes_single_use id c hc).1⟩

/-- Two redemptions of one code read it before either commits, and both succeed, for two ids. -/
theorem code_redeemed_twice : ∃ c : LinkConfig, Reachable (linking id) {} c ∧
    c.world.redemptions =
      [⟨"LINK-AAAAAA", "222", "u", 0⟩, ⟨"LINK-AAAAAA", "111", "u", 0⟩] ∧
    ¬ (c.world.redemptions.map Redemption.code).Nodup := by
  have hrun : (((linking id).run {} { world := { clock := 0 } }
      ([.spawn (.issueCode "u")] ++ issueSteps 0 ++
        [.spawn (.redeemCode "LINK-AAAAAA" "111"), .spawn (.redeemCode "LINK-AAAAAA" "222")] ++
        redeemSteps 1 ++ redeemSteps 2 ++ [.run 1 .ok, .run 2 .ok])).any fun c =>
          decide (c.world.redemptions =
            [⟨"LINK-AAAAAA", "222", "u", 0⟩, ⟨"LINK-AAAAAA", "111", "u", 0⟩])) = true := by
    decide +kernel
  obtain ⟨c, hc, hredemptions⟩ := Reachable.exists_of_run (D := {})
    ⟨fun _ _ => trivial, fun _ _ _ => trivial, fun _ _ _ => trivial⟩ trivial hrun
  refine ⟨c, hc, hredemptions, ?_⟩
  rw [hredemptions]
  decide

end AgentPay.Properties
