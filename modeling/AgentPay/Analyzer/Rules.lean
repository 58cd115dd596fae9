import AgentPay.Gateway.Scores
import AgentPay.Library.PyText

/-!
# The deterministic rules

The first layer of the content analyzer searches every untrusted field for known phrasings. What it
takes from outside, the Unicode normalisation, the search for a regular expression and the lower case
of a text, is an engine that the results hold for whatever it answers. Confidences are exact
rationals.
-/

set_option autoImplicit false

namespace AgentPay.Analyzer

open AgentPay.Library AgentPay.Gateway

/-- A text as its characters. -/
abbrev Text := List Char

/-- `unicodedata.normalize("NFKC", ·)`, the span of the first match of a pattern that ignores case,
and `str.lower`. -/
structure Engine where
  nfkc : Text → Text
  search : String → Text → Option (ℕ × ℕ)
  lower : Text → Text

/-! ## Texts -/

/-- The class `_INVISIBLE`: zero-width characters, bidi controls, invisible operators, the byte order
mark and the soft hyphen. -/
def isInvisible (c : Char) : Bool :=
  let n := c.toNat
  (0x200b ≤ n && n ≤ 0x200f) || (0x202a ≤ n && n ≤ 0x202e) || (0x2060 ≤ n && n ≤ 0x2064) ||
    n == 0xfeff || n == 0xad

/-- The class of the blanks of `normalize`. -/
def isBlank (c : Char) : Bool := c == ' ' || c == '\t' || c.toNat == 0xa0

/-- Every run of members of a class becomes one space; `inside` tells whether the last character was
a member. -/
def collapse (member : Char → Bool) : Bool → Text → Text
  | _, [] => []
  | inside, c :: text =>
      if member c then
        if inside then collapse member true text else ' ' :: collapse member true text
      else c :: collapse member false text

/-- `normalize`. -/
def normalize (E : Engine) (text : Text) : Text :=
  collapse isBlank false ((E.nfkc text).filter fun c => !isInvisible c)

/-! ## The strongest of several scores -/

theorem le_strongest {weights : List ℚ} {w : ℚ} (h : w ∈ weights) : w ≤ weights.foldr max 0 := by
  induction weights with
  | nil => exact absurd h List.not_mem_nil
  | cons a weights ih =>
      rcases List.mem_cons.1 h with rfl | h
      · exact le_max_left _ _
      · exact (ih h).trans (le_max_right _ _)

theorem strongest_le {weights : List ℚ} {b : ℚ} (hb : 0 ≤ b) (h : ∀ w ∈ weights, w ≤ b) :
    weights.foldr max 0 ≤ b := by
  induction weights with
  | nil => exact hb
  | cons a weights ih =>
      obtain ⟨ha, hrest⟩ := List.forall_mem_cons.1 h
      exact max_le ha (ih hrest)

theorem strongest_nonneg (weights : List ℚ) : 0 ≤ weights.foldr max 0 := by
  induction weights with
  | nil => exact le_rfl
  | cons a weights ih => exact ih.trans (le_max_right _ _)

theorem strongest_mono {weights weights' : List ℚ} (h : weights ⊆ weights') :
    weights.foldr max 0 ≤ weights'.foldr max 0 :=
  strongest_le (strongest_nonneg weights') fun _ hw => le_strongest (h hw)

/-! ## Rules -/

structure Rule where
  label : String
  pattern : String
  weight : ℚ
  description : String

/-- `RULES`. -/
def rules : List Rule := [
  { label := "instruction_override_phrase"
    pattern := "\\b(ignore|disregard|forget|override)\\s+(all\\s+|any\\s+|the\\s+)?" ++
      "(previous|prior|earlier|above|preceding|system)\\s+" ++
      "(instruction|instructions|prompt|prompts|rule|rules|message|messages)\\b"
    weight := 9 / 10
    description := "classic prompt-override phrasing" },
  { label := "role_reassignment"
    pattern := "\\b(you\\s+are\\s+now|from\\s+now\\s+on\\s+you|act\\s+as|pretend\\s+to\\s+be|" ++
      "new\\s+(system\\s+)?(prompt|instructions?|role))\\b"
    weight := 7 / 10
    description := "attempts to reassign the model's role" },
  { label := "verification_bypass_request"
    pattern := "\\b(disable|skip|bypass|turn\\s+off|suppress|omit)\\s+" ++
      "(the\\s+)?(verification|validation|security|safety|check|checks|" ++
      "2fa|mfa|confirmation|approval|review)\\b"
    weight := 95 / 100
    description := "asks for a control to be switched off" },
  { label := "approval_suppression"
    pattern := "\\b(do\\s+not|don'?t|never|no\\s+need\\s+to)\\s+" ++
      "(ask|request|require|prompt|wait)\\s+" ++
      "(for\\s+)?(the\\s+)?(user\\s+)?(confirmation|approval|permission|consent|authorization)\\b"
    weight := 95 / 100
    description := "asks the agent to pay without human confirmation" },
  { label := "budget_bypass_request"
    pattern := "\\b(ignore|exceed|raise|increase|remove|lift|bypass|override)\\s+" ++
      "(the\\s+|your\\s+|any\\s+)?(spending\\s+)?(budget|limit|limits|cap|caps|threshold|ceiling)\\b"
    weight := 9 / 10
    description := "asks for the spending policy to be relaxed" },
  { label := "alternate_endpoint"
    pattern := "\\b(use|send|post|redirect|route|forward)\\s+(the\\s+)?" ++
      "(payment|funds|money|transaction|request|checkout)?\\s*" ++
      "(to\\s+)?(this\\s+|an?\\s+|our\\s+)?(alternate|alternative|different|new|backup|updated)\\s+" ++
      "(endpoint|url|address|api|gateway|link|account|wallet)\\b"
    weight := 95 / 100
    description := "attempts to redirect funds or traffic" },
  { label := "credential_exfiltration"
    pattern := "\\b(reveal|show|print|output|send|share|leak|repeat)\\s+" ++
      "(me\\s+|us\\s+)?(your\\s+|the\\s+|all\\s+)?" ++
      "(system\\s+prompt|api[_\\s-]?key|secret|secrets|token|tokens|credential|credentials|password)\\b"
    weight := 9 / 10
    description := "asks for secrets or the system prompt" },
  { label := "urgency_pressure"
    pattern := "\\b(urgent|immediately|right\\s+now|without\\s+delay|before\\s+it'?s\\s+too\\s+late)\\b" ++
      "[^.]\x7b0,60\x7d\\b(pay|purchase|buy|transfer|checkout|complete\\s+the\\s+order)\\b"
    weight := 45 / 100
    description := "social-engineering urgency paired with a payment verb" },
  { label := "hidden_instruction_markers"
    pattern := "(<\\s*!--|\\[\\s*system\\s*\\]|\\\x7b\\\x7b\\s*system|###\\s*system|<\\|im_start\\|>|" ++
      "\\bBEGIN\\s+SYSTEM\\b|\\bEND\\s+SYSTEM\\b)"
    weight := 75 / 100
    description := "smuggled instruction delimiters or hidden markup" },
  { label := "amount_mutation_request"
    pattern := "\\b(change|update|set|adjust|modify|correct)\\s+(the\\s+)?" ++
      "(amount|total|price|quantity|currency|recipient|merchant)\\s+" ++
      "(to|into)\\b"
    weight := 8 / 10
    description := "asks for the money-moving fields to be rewritten" },
  { label := "tool_invocation_injection"
    pattern := "\\b(call|invoke|execute|run|trigger)\\s+(the\\s+)?" ++
      "(tool|function|api|endpoint|command)\\b[^.]\x7b0,40\x7d\\b" ++
      "(pay|transfer|checkout|authorize|purchase)\\b"
    weight := 85 / 100
    description := "tries to drive tool use from inside content" }]

structure RuleFinding where
  label : String
  field : String
  weight : ℚ
  excerpt : Text
  description : String

structure RuleScanResult where
  findings : List RuleFinding
  confidence : ℚ
  hadInvisibleCharacters : Bool

/-- The finding of a rule that matches a normalised field from `first` to `last`. -/
def Rule.finding (rule : Rule) (field : String) (text : Text) (first last : ℕ) : RuleFinding where
  label := rule.label
  field := field
  weight := rule.weight
  excerpt := (strip ((text.take (last + 30)).drop (first - 30))).take 160
  description := rule.description

/-- What the rules find in a field; an empty one is skipped. -/
def fieldFindings (E : Engine) (field : String × Text) : List RuleFinding :=
  if field.2.isEmpty then []
  else rules.filterMap fun rule =>
    (E.search rule.pattern (normalize E field.2)).map fun m =>
      rule.finding field.1 (normalize E field.2) m.1 m.2

/-- The confidence of a scan: the strongest finding, raised by every further label and by invisible
characters, which count for a little by themselves. -/
def ruleConfidence (findings : List RuleFinding) (sawInvisible : Bool) : ℚ :=
  if findings.isEmpty then if sawInvisible then 8 / 100 else 0
  else
    let top := (findings.map RuleFinding.weight).foldr max 0
    let distinct : ℕ := (findings.map RuleFinding.label).dedup.length
    roundPlaces 3 (min 1 (top + 5 / 100 * ((distinct : ℚ) - 1) +
      if sawInvisible then 5 / 100 else 0))

namespace Rules

/-- `scan` of the rules. -/
def scan (E : Engine) (fields : List (String × Text)) : RuleScanResult :=
  let findings := fields.flatMap (fieldFindings E)
  let sawInvisible := fields.any fun field => field.2.any isInvisible
  ⟨findings, ruleConfidence findings sawInvisible, sawInvisible⟩

end Rules

/-- The labels of a scan, sorted. -/
def RuleScanResult.labels (r : RuleScanResult) : List String :=
  (r.findings.map RuleFinding.label).dedup.mergeSort fun a b => decide (a ≤ b)

end AgentPay.Analyzer
