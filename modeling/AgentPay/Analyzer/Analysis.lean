import AgentPay.Analyzer.Similarity
import AgentPay.Analyzer.Llm

/-!
# The content analysis

The three layers read the untrusted fields, and their confidences are combined under the trust in the
source. Nothing is decided here.
-/

set_option autoImplicit false

namespace AgentPay.Analyzer

open AgentPay.Library AgentPay.Gateway

/-- `trust_score`. -/
def trustScore : SourceType → ℚ
  | .officialApi => 95 / 100
  | .verifiedCatalog => 8 / 10
  | .userUpload => 5 / 10
  | .scrapedPage => 25 / 100
  | .email => 15 / 100
  | .unknown => 1 / 10

/-- `injection_prior`. -/
def injectionPrior (source : SourceType) : ℚ := 1 + (1 - trustScore source) * (25 / 100)

/-- The strongest of the three confidences, raised when two of them are positive. -/
def base (rule llm similarity : ℚ) : ℚ :=
  let strongest := max (max rule llm) similarity
  if 2 ≤ [rule, llm, similarity].countP (fun c => decide (0 < c)) then min 1 (strongest + 5 / 100)
  else strongest

/-- `combine`. -/
def combine (rule llm : ℚ) (source : SourceType) (similarity : ℚ) : ℚ :=
  roundPlaces 3 (min 1 (base rule llm similarity * injectionPrior source))

/-- The labels of an analysis. -/
def injectionLabels (rule : RuleScanResult) (llm : ClassifierResult) (sim : SimilarityResult) :
    List String :=
  let signals := llm.signals.filter fun s => !s.startsWith "classifier_unavailable"
  let similar := if sim.label.isEmpty then [] else ["similar:" ++ sim.label]
  (rule.labels ++ signals ++ similar).dedup.mergeSort fun a b => decide (a ≤ b)

/-- An item of the evidence. -/
def evidenceItem (layer label field excerpt why : String) : Json := .obj [
  ("layer", .str layer), ("label", .str label), ("field", .str field), ("excerpt", .str excerpt),
  ("why", .str why)]

/-- The evidence of an analysis. -/
def evidence (R : Runtime) (rule : RuleScanResult) (llm : ClassifierResult)
    (sim : SimilarityResult) : List Json :=
  rule.findings.map (fun f =>
    evidenceItem "rules" f.label f.field (String.ofList f.excerpt) f.description) ++
  (if llm.signals.isEmpty || llm.degraded then [] else
    [evidenceItem "llm" (",".intercalate (llm.signals.take 5)) "data_block" ""
      (llm.model ++ " confidence " ++ R.floatRepr llm.confidence)]) ++
  (if 0 < sim.confidence then
    [evidenceItem "similarity" (if sim.label.isEmpty then "sub-threshold" else sim.label)
      "untrusted_fields" ""
      ("resemblance to known injection patterns (" ++ R.floatRepr sim.confidence ++ ")")]
   else [])

/-- `analyze`, given what the classifier answered. -/
def analyze (R : Runtime) (E : Engine) (source : SourceType) (fields : List (String × Text))
    (llm : ClassifierResult) : AnalysisResult :=
  let rule := Rules.scan E fields
  let sim := Similarity.scan E fields
  { injectionConfidence := combine rule.confidence llm.confidence source sim.confidence
    injectionLabels := injectionLabels rule llm sim
    ruleConfidence := rule.confidence
    llmConfidence := llm.confidence
    similarityConfidence := sim.confidence
    similarityLabel := sim.label
    deterministicConfidence := combine rule.confidence 0 source sim.confidence
    classifierDegraded := llm.degraded
    classifierDegradedReason := llm.degradedReason
    sourceTrustScore := trustScore source
    evidence := evidence R rule llm sim
    classifierModel := llm.model
    classifierLatencyMs := llm.latencyMs }

end AgentPay.Analyzer
