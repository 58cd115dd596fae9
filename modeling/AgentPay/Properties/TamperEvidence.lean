import AgentPay.Gateway.AuditLog
import AgentPay.Properties.Scenario

/-!
# Tampering with the audit table

The length of an accepted log and its head determine every hashed field and both hash columns of
every row, and changed fields under unchanged hash columns are reported at the first row they are
changed in (`tampering_is_evident`). Both are facts about hash chains; what is used of the table is
that a hash determines the hashed fields of its row and the hash before it.
-/

set_option autoImplicit false

namespace AgentPay.Properties

open AgentPay.Library AgentPay.Gateway

/-- The rows say the same under the same hash columns. -/
def SameRow (R : Runtime) (a b : AuditRow) : Prop :=
  SameHashedFields R a b ∧ a.prevHash = b.prevHash ∧ a.eventHash = b.eventHash

/-- The rows carry the same number and the same hash columns. -/
def SameColumns (a b : AuditRow) : Prop :=
  a.seq = b.seq ∧ a.prevHash = b.prevHash ∧ a.eventHash = b.eventHash

/-- The lists agree up to a first pair that is in no relation. -/
theorem exists_first {α : Type} {P Q : α → α → Prop} {a b : List α} (hP : List.Forall₂ P a b)
    (hQ : ¬ List.Forall₂ Q a b) : ∃ pre r post pre' s post', a = pre ++ r :: post ∧
      b = pre' ++ s :: post' ∧ List.Forall₂ (fun x y => Q x y ∧ P x y) pre pre' ∧ ¬ Q r s ∧
      P r s := by
  induction hP with
  | nil => exact absurd .nil hQ
  | @cons x y xs ys hxy _ ih =>
      by_cases hq : Q x y
      · obtain ⟨pre, r, post, pre', s, post', rfl, rfl, hpre, hrs⟩ :=
          ih fun hrest => hQ (.cons hq hrest)
        exact ⟨x :: pre, r, post, y :: pre', s, post', rfl, rfl, .cons ⟨hq, hxy⟩ hpre, hrs⟩
      · exact ⟨[], x, xs, [], y, ys, rfl, rfl, .nil, hq, hxy⟩

/-- **An accepted log is determined by its length and head, and a log edited under its hash columns
is rejected at the first edited row.** -/
theorem tampering_is_evident (R : Runtime) (hsha : Function.Injective R.sha256)
    (hfloat : Json.FloatText R.floatRepr) :
    (∀ (a b : List AuditRow) (n m : ℕ) (head : String), a.length = b.length →
      verifyChain R none a = .valid n head → verifyChain R none b = .valid m head →
        List.Forall₂ (SameRow R) a b) ∧
    ∀ (a b : List AuditRow) (n : ℕ) (head : String), verifyChain R none a = .valid n head →
      List.Forall₂ SameColumns a b → ¬ List.Forall₂ (SameHashedFields R) a b →
        ∃ pre r post pre' s post', a = pre ++ r :: post ∧ b = pre' ++ s :: post' ∧
          List.Forall₂ (SameHashedFields R) pre pre' ∧ ¬ SameHashedFields R r s ∧ s.seq = r.seq ∧
          ∃ expected, verifyChain R none b =
            .broken b.length s.seq s.eventId expected s.eventHash := by
  constructor
  · intro a b n m head hlength ha hb
    obtain ⟨-, ha, hheada⟩ := verifyChain_valid_iff.1 ha
    obtain ⟨-, hb, hheadb⟩ := verifyChain_valid_iff.1 hb
    exact (Links.agree_of_head (fun e f h k heq => hash_determines hsha hfloat heq) hlength ha hb
      (hheada.trans hheadb.symm)).2
  · intro a b n head ha hcolumns hchanged
    obtain ⟨-, ha, -⟩ := verifyChain_valid_iff.1 ha
    obtain ⟨pre, r, post, pre', s, post', rfl, rfl, hpre, hrs, hseq, -, hhash⟩ :=
      exists_first hcolumns hchanged
    have hlink : ∀ e f h, (auditLinks R).link e h = (auditLinks R).link f h ↔
        SameHashedFields R e f := fun e f h =>
      ⟨fun heq => (hash_determines hsha hfloat heq).1, fun hsame => hsame.computeHash h⟩
    have hbreak : (auditLinks R).firstBreak genesisHash (pre' ++ s :: post') =
        some (s, (auditLinks R).head genesisHash pre) :=
      (auditLinks R).firstBreak_of_changed hlink ha
        (hpre.imp fun x y hxy => ⟨hxy.1, hxy.2.2⟩) hhash hrs
    refine ⟨pre, r, post, pre', s, post', rfl, rfl, hpre.imp fun _ _ hxy => hxy.1, hrs, hseq.symm,
      computeHash R (s.body R) ((auditLinks R).head genesisHash pre), ?_⟩
    rw [verifyChain, verifyRows_eq]
    simp only [limited, hbreak]

/-- The digest is the text itself, and a float is written as a fraction. -/
def plainRuntime : Runtime := { Scenario.runtime with floatRepr := Json.ratText }

/-- The first row of a log. -/
def firstRow (decision : String) : AuditRow where
  seq := 1
  eventId := "evt_1"
  eventType := "decision"
  paymentAuthorizationId := some "pa_1"
  userId := some "u"
  agentId := none
  decision := some decision
  reasonCodes := .arr []
  risk := .obj [("score", .float (1 / 2))]
  policyVersion := some "v1"
  payload := .obj []
  prevHash := genesisHash
  eventHash := ""
  createdAt := .naive 0

/-- A row with its hash. -/
def sealed (e : AuditRow) : AuditRow :=
  { e with eventHash := computeHash plainRuntime (e.body plainRuntime) genesisHash }

/-- The row with its decision flipped. -/
def flipped : AuditRow := { sealed (firstRow "BLOCK") with decision := some "ALLOW" }

theorem verify_sealed (e : AuditRow) (h : e.prevHash = genesisHash) :
    verifyChain plainRuntime none [sealed e] = .valid 1 (sealed e).eventHash := by
  exact verifyChain_valid_iff.2 ⟨rfl, ⟨h, rfl, trivial⟩, rfl⟩

/-- A log of one row is the only one with its head, and its decision cannot be edited. -/
theorem tampering_is_evident_once :
    (∀ (b : List AuditRow) (m : ℕ), [sealed (firstRow "BLOCK")].length = b.length →
      verifyChain plainRuntime none b = .valid m (sealed (firstRow "BLOCK")).eventHash →
        List.Forall₂ (SameRow plainRuntime) [sealed (firstRow "BLOCK")] b) ∧
    ∃ s : AuditRow, ∃ expected, verifyChain plainRuntime none [flipped] =
      .broken 1 s.seq s.eventId expected s.eventHash := by
  have hevident := tampering_is_evident plainRuntime (fun _ _ h => h) Json.floatText_ratText
  refine ⟨fun b m hlength hb => hevident.1 _ b 1 m _ hlength (verify_sealed _ rfl) hb, ?_⟩
  have hchanged : ¬ List.Forall₂ (SameHashedFields plainRuntime) [sealed (firstRow "BLOCK")]
      [flipped] := by
    intro hsame
    cases hsame with
    | cons h _ => exact absurd h.decision (by decide)
  obtain ⟨_, _, _, _, s, _, _, _, _, _, _, expected, hbroken⟩ :=
    hevident.2 _ [flipped] 1 _ (verify_sealed (firstRow "BLOCK") rfl) (.cons ⟨rfl, rfl, rfl⟩ .nil) hchanged
  exact ⟨s, expected, hbroken⟩

end AgentPay.Properties
