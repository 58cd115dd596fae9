import AgentPay.Analyzer.Analysis
import AgentPay.Properties.Scenario

/-!
# Evidence is never diluted

More untrusted text never lowers what the deterministic layers conclude: a bag of fields scores at
least what each of its fields scores alone. The combination keeps the order of the layers, is at
least the strongest of them, and does not fall with the trust in the source.
-/

set_option autoImplicit false

namespace AgentPay.Properties

open AgentPay.Library AgentPay.Gateway AgentPay.Analyzer

/-- A confidence as the layers give it: a number of thousandths, at most one. -/
def IsConfidence (c : ℚ) : Prop := ∃ n : ℕ, n ≤ 1000 ∧ c = n / 1000

namespace IsConfidence

theorem nonneg {c : ℚ} (h : IsConfidence c) : 0 ≤ c := by
  obtain ⟨n, -, rfl⟩ := h
  positivity

theorem le_one {c : ℚ} (h : IsConfidence c) : c ≤ 1 := by
  obtain ⟨n, hn, rfl⟩ := h
  rw [div_le_one (by norm_num)]
  exact_mod_cast hn

/-- Rounding leaves a confidence as it is. -/
theorem round {c : ℚ} (h : IsConfidence c) : roundPlaces 3 c = c := by
  obtain ⟨n, -, rfl⟩ := h
  have hint : (n : ℚ) / 1000 * 10 ^ 3 = (n : ℤ) := by
    push_cast
    ring
  rw [roundPlaces, hint, roundHalfEven_intCast]
  norm_num

/-- Rounding a number of the unit interval gives a confidence. -/
theorem of_round {q : ℚ} (h0 : 0 ≤ q) (h1 : q ≤ 1) : IsConfidence (roundPlaces 3 q) := by
  have hlow : (0 : ℤ) ≤ roundHalfEven (q * 10 ^ 3) := by
    rw [← roundHalfEven_intCast 0]
    apply roundHalfEven_mono
    push_cast
    positivity
  have hhigh : roundHalfEven (q * 10 ^ 3) ≤ 1000 := by
    rw [← roundHalfEven_intCast 1000]
    apply roundHalfEven_mono
    push_cast
    linarith
  obtain ⟨n, hn⟩ := Int.eq_ofNat_of_zero_le hlow
  refine ⟨n, by omega, ?_⟩
  rw [roundPlaces, hn]
  norm_num

end IsConfidence

/-! ## The rules -/

section Rules

variable {E : Engine}

/-- Every rule weighs more than invisible characters do by themselves. -/
theorem rules_weight : ∀ rule ∈ rules, 8 / 100 ≤ rule.weight ∧ rule.weight ≤ 1 := by
  have hall : (rules.map Rule.weight).all (fun w => decide (8 / 100 ≤ w ∧ w ≤ 1)) = true := by
    decide +kernel
  intro rule hrule
  exact of_decide_eq_true (List.all_eq_true.1 hall _ (List.mem_map_of_mem hrule))

theorem weight_of_finding {field : String × Text} {f : RuleFinding}
    (h : f ∈ fieldFindings E field) : 8 / 100 ≤ f.weight ∧ f.weight ≤ 1 := by
  rw [fieldFindings] at h
  split at h
  · exact absurd h List.not_mem_nil
  · obtain ⟨rule, hrule, hmatch⟩ := List.mem_filterMap.1 h
    obtain ⟨m, -, rfl⟩ := Option.map_eq_some_iff.1 hmatch
    exact rules_weight rule hrule

theorem distinct_le {labels labels' : List String} (h : labels ⊆ labels') :
    labels.dedup.length ≤ labels'.dedup.length :=
  ((List.nodup_dedup labels).subperm fun _ hl =>
    List.mem_dedup.2 (h (List.mem_dedup.1 hl))).length_le

/-- The confidence before it is cut to one and rounded. -/
def rawConfidence (findings : List RuleFinding) (sawInvisible : Bool) : ℚ :=
  (findings.map RuleFinding.weight).foldr max 0 +
    5 / 100 * (((findings.map RuleFinding.label).dedup.length : ℚ) - 1) +
      if sawInvisible then 5 / 100 else 0

theorem rawConfidence_mono {findings findings' : List RuleFinding} {saw saw' : Bool}
    (hfindings : findings ⊆ findings') (hsaw : saw = true → saw' = true) :
    rawConfidence findings saw ≤ rawConfidence findings' saw' := by
  have htop := strongest_mono (List.map_subset RuleFinding.weight hfindings)
  have hdistinct : ((findings.map RuleFinding.label).dedup.length : ℚ) ≤
      (findings'.map RuleFinding.label).dedup.length := by
    exact_mod_cast distinct_le (List.map_subset RuleFinding.label hfindings)
  have hbonus : (if saw then 5 / 100 else 0 : ℚ) ≤ if saw' then 5 / 100 else 0 := by
    cases saw with
    | true => rw [hsaw rfl]
    | false => cases saw' <;> norm_num
  rw [rawConfidence, rawConfidence]
  linarith

/-- A finding weighs at most the raw confidence. -/
theorem weight_le_raw {findings : List RuleFinding} {f : RuleFinding} (hf : f ∈ findings)
    (sawInvisible : Bool) : f.weight ≤ rawConfidence findings sawInvisible := by
  have htop := le_strongest (List.mem_map_of_mem (f := RuleFinding.weight) hf)
  have hdistinct : (1 : ℚ) ≤ (findings.map RuleFinding.label).dedup.length := by
    have hmem : f.label ∈ (findings.map RuleFinding.label).dedup :=
      List.mem_dedup.2 (List.mem_map_of_mem hf)
    exact_mod_cast List.length_pos_of_mem hmem
  have hbonus : (0 : ℚ) ≤ if sawInvisible then 5 / 100 else 0 := by
    cases sawInvisible <;> norm_num
  rw [rawConfidence]
  linarith

theorem ruleConfidence_nil (sawInvisible : Bool) :
    ruleConfidence [] sawInvisible = if sawInvisible then 8 / 100 else 0 := rfl

theorem ruleConfidence_of_mem {findings : List RuleFinding} {f : RuleFinding} (hf : f ∈ findings)
    (sawInvisible : Bool) : ruleConfidence findings sawInvisible =
      roundPlaces 3 (min 1 (rawConfidence findings sawInvisible)) := by
  cases findings with
  | nil => exact absurd hf List.not_mem_nil
  | cons g findings => rfl

/-- More findings, and invisible characters, never lower the confidence. -/
theorem ruleConfidence_mono {findings findings' : List RuleFinding} {saw saw' : Bool}
    (hfindings : findings ⊆ findings') (hsaw : saw = true → saw' = true)
    (hweights : ∀ f ∈ findings', 8 / 100 ≤ f.weight) :
    ruleConfidence findings saw ≤ ruleConfidence findings' saw' := by
  cases findings' with
  | nil =>
      obtain rfl := List.subset_nil.1 hfindings
      rw [ruleConfidence_nil, ruleConfidence_nil]
      cases saw with
      | true => rw [hsaw rfl]
      | false => cases saw' <;> norm_num
  | cons g findings' =>
      rw [ruleConfidence_of_mem List.mem_cons_self]
      cases findings with
      | nil =>
          -- a finding weighs more than the invisible characters of the smaller scan
          have hsmall : ruleConfidence [] saw ≤ 8 / 100 := by
            rw [ruleConfidence_nil]
            cases saw <;> norm_num
          have hg : g ∈ g :: findings' := List.mem_cons_self
          have hraw := (hweights g hg).trans (weight_le_raw hg saw')
          have heighty : IsConfidence (8 / 100) := ⟨80, by norm_num, by norm_num⟩
          rw [← heighty.round] at hsmall
          exact hsmall.trans (roundPlaces_mono 3 (le_min (by norm_num) hraw))
      | cons f findings =>
          rw [ruleConfidence_of_mem List.mem_cons_self]
          exact roundPlaces_mono 3 (min_le_min_left 1 (rawConfidence_mono hfindings hsaw))

theorem isConfidence_rules (E : Engine) (fields : List (String × Text)) :
    IsConfidence (Rules.scan E fields).confidence := by
  rw [Rules.scan]
  cases hfindings : fields.flatMap (fieldFindings E) with
  | nil =>
      simp only [ruleConfidence_nil]
      split
      · exact ⟨80, by norm_num, by norm_num⟩
      · exact ⟨0, by norm_num, by norm_num⟩
  | cons f findings =>
      simp only
      rw [ruleConfidence_of_mem List.mem_cons_self]
      refine IsConfidence.of_round (le_min (by norm_num) ?_) (min_le_left _ _)
      have hf : f ∈ fields.flatMap (fieldFindings E) := hfindings ▸ List.mem_cons_self
      obtain ⟨field, -, hf⟩ := List.mem_flatMap.1 hf
      have hweight := (weight_of_finding hf).1
      have hhead : f ∈ f :: findings := List.mem_cons_self
      have hraw := weight_le_raw hhead (fields.any fun field => field.2.any isInvisible)
      linarith

/-- The rules give a bag at least what they give each of its fields. -/
theorem rules_single_le {fields : List (String × Text)} {field : String × Text}
    (h : field ∈ fields) :
    (Rules.scan E [field]).confidence ≤ (Rules.scan E fields).confidence := by
  rw [Rules.scan, Rules.scan]
  refine ruleConfidence_mono ?_ ?_ ?_
  · intro f hf
    obtain ⟨field', hfield', hf⟩ := List.mem_flatMap.1 hf
    rw [List.mem_singleton.1 hfield'] at hf
    exact List.mem_flatMap.2 ⟨field, h, hf⟩
  · intro hsaw
    obtain ⟨field', hfield', hsaw⟩ := List.any_eq_true.1 hsaw
    rw [List.mem_singleton.1 hfield'] at hsaw
    exact List.any_eq_true.2 ⟨field, h, hsaw⟩
  · intro f hf
    obtain ⟨field', -, hf⟩ := List.mem_flatMap.1 hf
    exact (weight_of_finding hf).1

end Rules

/-! ## The similarity layer -/

section Similarity

variable {E : Engine}

theorem contribution_bounds (tokens : List String) (cluster : IntentCluster) :
    0 ≤ contribution tokens cluster ∧ contribution tokens cluster ≤ 75 / 100 := by
  rw [contribution]
  split
  · exact ⟨le_rfl, by norm_num⟩
  · split
    · exact ⟨le_rfl, by norm_num⟩
    · exact ⟨le_min (by norm_num) (by positivity), min_le_left _ _⟩

theorem intentScore_bounds (tokens : List String) :
    0 ≤ (intentScore tokens).1 ∧ (intentScore tokens).1 ≤ 75 / 100 := by
  rw [intentScore_fst]
  refine ⟨strongest_nonneg _, strongest_le (by norm_num) fun w hw => ?_⟩
  obtain ⟨cluster, -, rfl⟩ := List.mem_map.1 hw
  exact (contribution_bounds tokens cluster).2

theorem bestJaccard_bounds (fieldShingles : Finset Text) :
    0 ≤ bestJaccard fieldShingles ∧ bestJaccard fieldShingles ≤ 1 := by
  have hstep : ∀ (best : ℚ) (attack : String), 0 ≤ best → best ≤ 1 →
      0 ≤ jaccardStep fieldShingles best attack ∧ jaccardStep fieldShingles best attack ≤ 1 := by
    intro best attack h0 h1
    rw [jaccardStep]
    split
    · exact ⟨h0, h1⟩
    · refine ⟨h0.trans (le_max_left _ _), max_le h1 (div_le_one_of_le₀ ?_ (Nat.cast_nonneg _))⟩
      exact_mod_cast Finset.card_le_card
        (Finset.inter_subset_left.trans Finset.subset_union_left)
  have hfold : ∀ (l : List String) (best : ℚ), 0 ≤ best → best ≤ 1 →
      0 ≤ l.foldl (jaccardStep fieldShingles) best ∧
        l.foldl (jaccardStep fieldShingles) best ≤ 1 := by
    intro l
    induction l with
    | nil => exact fun best h0 h1 => ⟨h0, h1⟩
    | cons attack l ih =>
        intro best h0 h1
        obtain ⟨h0, h1⟩ := hstep best attack h0 h1
        exact ih _ h0 h1
  rw [bestJaccard]
  split
  · exact ⟨le_rfl, zero_le_one⟩
  · exact hfold _ _ le_rfl zero_le_one

theorem jaccardConfidence_bounds {jaccard : ℚ} (h1 : jaccard ≤ 1) :
    0 ≤ jaccardConfidence jaccard ∧ jaccardConfidence jaccard ≤ 1 := by
  rw [jaccardConfidence]
  split
  · next h => exact ⟨le_trans (by norm_num) h, h1⟩
  · split
    · norm_num
    · norm_num

/-- The better of the two scores of a field. -/
def fieldScore (E : Engine) (field : String × Text) : ℚ := (similarityStep E (0, "") field).1

theorem similarityStep_fst {best : ℚ × String} (h : 0 ≤ best.1) (field : String × Text) :
    (similarityStep E best field).1 = max best.1 (fieldScore E field) := by
  rw [fieldScore, similarityStep, similarityStep]
  split
  · exact (max_eq_left h).symm
  · simp only [better_fst]
    rw [max_assoc, max_eq_right (intentScore_bounds _).1]

theorem fieldScore_bounds (E : Engine) (field : String × Text) :
    0 ≤ fieldScore E field ∧ fieldScore E field ≤ 1 := by
  rw [fieldScore, similarityStep]
  split
  · exact ⟨le_rfl, zero_le_one⟩
  · simp only [better_fst]
    refine ⟨le_max_of_le_left (le_max_left _ _), max_le (max_le zero_le_one ?_) ?_⟩
    · exact (intentScore_bounds _).2.trans (by norm_num)
    · exact (jaccardConfidence_bounds (bestJaccard_bounds _).2).2

/-- The loop keeps the best score of the fields. -/
theorem similarity_foldl (E : Engine) (fields : List (String × Text)) {best : ℚ × String}
    (h : 0 ≤ best.1) : (fields.foldl (similarityStep E) best).1 =
      max best.1 ((fields.map (fieldScore E)).foldr max 0) := by
  induction fields generalizing best with
  | nil => exact (max_eq_left h).symm
  | cons field fields ih =>
      rw [List.foldl_cons, ih, similarityStep_fst h, List.map_cons, List.foldr_cons, max_assoc]
      rw [similarityStep_fst h]
      exact h.trans (le_max_left _ _)

theorem similarity_confidence (E : Engine) (fields : List (String × Text)) :
    (Similarity.scan E fields).confidence =
      roundPlaces 3 ((fields.map (fieldScore E)).foldr max 0) := by
  rw [Similarity.scan]
  simp only
  rw [similarity_foldl E fields le_rfl, max_eq_right (strongest_nonneg _)]

theorem isConfidence_similarity (E : Engine) (fields : List (String × Text)) :
    IsConfidence (Similarity.scan E fields).confidence := by
  rw [similarity_confidence]
  refine IsConfidence.of_round (strongest_nonneg _) (strongest_le zero_le_one fun w hw => ?_)
  obtain ⟨field, -, rfl⟩ := List.mem_map.1 hw
  exact (fieldScore_bounds E field).2

/-- The similarity layer gives a bag at least what it gives each of its fields. -/
theorem similarity_single_le {fields : List (String × Text)} {field : String × Text}
    (h : field ∈ fields) :
    (Similarity.scan E [field]).confidence ≤ (Similarity.scan E fields).confidence := by
  rw [similarity_confidence, similarity_confidence]
  refine roundPlaces_mono 3 (strongest_mono (List.map_subset _ fun field' hfield' => ?_))
  rwa [List.mem_singleton.1 hfield']

end Similarity

/-! ## The combination -/

section Combine

variable {rule llm sim rule' llm' sim' : ℚ}

/-- How many of the layers report something. -/
theorem countP_layers (a b c : ℚ) : [a, b, c].countP (fun x => decide (0 < x)) =
    (if 0 < a then 1 else 0) + (if 0 < b then 1 else 0) + (if 0 < c then 1 else 0) := by
  simp only [List.countP_cons, List.countP_nil, decide_eq_true_eq]
  omega

theorem countP_layers_mono (hrule : rule ≤ rule') (hllm : llm ≤ llm') (hsim : sim ≤ sim') :
    [rule, llm, sim].countP (fun x => decide (0 < x)) ≤
      [rule', llm', sim'].countP fun x => decide (0 < x) := by
  have hone : ∀ {a a' : ℚ}, a ≤ a' → (if 0 < a then 1 else 0) ≤ if 0 < a' then 1 else 0 := by
    intro a a' h
    split
    · next ha => rw [if_pos (ha.trans_le h)]
    · exact Nat.zero_le _
  rw [countP_layers, countP_layers]
  exact Nat.add_le_add (Nat.add_le_add (hone hrule) (hone hllm)) (hone hsim)

theorem strongest_le_base (hrule : rule ≤ 1) (hllm : llm ≤ 1) (hsim : sim ≤ 1) :
    max (max rule llm) sim ≤ base rule llm sim := by
  rw [base]
  split
  · exact le_min (max_le (max_le hrule hllm) hsim) (by linarith)
  · exact le_rfl

theorem base_le_one (hrule : rule ≤ 1) (hllm : llm ≤ 1) (hsim : sim ≤ 1) :
    base rule llm sim ≤ 1 := by
  rw [base]
  split
  · exact min_le_left _ _
  · exact max_le (max_le hrule hllm) hsim

theorem base_mono (hrule : rule ≤ rule') (hllm : llm ≤ llm') (hsim : sim ≤ sim')
    (hrule' : rule' ≤ 1) (hllm' : llm' ≤ 1) (hsim' : sim' ≤ 1) :
    base rule llm sim ≤ base rule' llm' sim' := by
  have hstrongest := max_le_max (max_le_max hrule hllm) hsim
  by_cases hcount : 2 ≤ [rule, llm, sim].countP (fun x => decide (0 < x))
  · -- the bonus of the smaller layers is given to the larger ones as well
    have hcount' := hcount.trans (countP_layers_mono hrule hllm hsim)
    rw [base, base]
    simp only [if_pos hcount, if_pos hcount']
    exact min_le_min_left 1 (by linarith)
  · refine le_trans (le_of_eq ?_) (hstrongest.trans (strongest_le_base hrule' hllm' hsim'))
    rw [base]
    simp only [if_neg hcount]

theorem one_le_injectionPrior (source : SourceType) : 1 ≤ injectionPrior source := by
  cases source <;> norm_num [injectionPrior, trustScore]

/-- The combination of layers of the unit interval keeps their order. -/
theorem combine_mono (source : SourceType) (hrule : rule ≤ rule') (hllm : llm ≤ llm')
    (hsim : sim ≤ sim') (hrule' : rule' ≤ 1) (hllm' : llm' ≤ 1) (hsim' : sim' ≤ 1) :
    combine rule llm source sim ≤ combine rule' llm' source sim' := by
  have hprior := one_le_injectionPrior source
  refine roundPlaces_mono 3 (min_le_min_left 1 (mul_le_mul_of_nonneg_right ?_ (by linarith)))
  exact base_mono hrule hllm hsim hrule' hllm' hsim'

/-- What the combination is to the confidences of the layers, whatever the source. -/
structure Faithful (source : SourceType) : Prop where
  monotone : ∀ {rule llm sim rule' llm' sim' : ℚ}, IsConfidence rule' → IsConfidence llm' →
    IsConfidence sim' → rule ≤ rule' → llm ≤ llm' → sim ≤ sim' →
      combine rule llm source sim ≤ combine rule' llm' source sim'
  strongest : ∀ {rule llm sim : ℚ}, IsConfidence rule → IsConfidence llm → IsConfidence sim →
    max (max rule llm) sim ≤ combine rule llm source sim
  confidence : ∀ {rule llm sim : ℚ}, IsConfidence rule → IsConfidence llm → IsConfidence sim →
    IsConfidence (combine rule llm source sim)
  distrust : ∀ {rule llm sim : ℚ} {source' : SourceType}, IsConfidence rule → IsConfidence llm →
    IsConfidence sim → trustScore source' ≤ trustScore source →
      combine rule llm source sim ≤ combine rule llm source' sim

theorem isConfidence_max {a b : ℚ} (ha : IsConfidence a) (hb : IsConfidence b) :
    IsConfidence (max a b) := by
  rcases max_choice a b with h | h
  · rwa [h]
  · rwa [h]

theorem faithful (source : SourceType) : Faithful source where
  monotone := by
    intro rule llm sim rule' llm' sim' hr hl hs hrule hllm hsim
    exact combine_mono source hrule hllm hsim hr.le_one hl.le_one hs.le_one
  strongest := by
    intro rule llm sim hr hl hs
    have hmax := isConfidence_max (isConfidence_max hr hl) hs
    have hbase := strongest_le_base hr.le_one hl.le_one hs.le_one
    have hprior := one_le_injectionPrior source
    -- the amplified base is at least the strongest layer, which rounding keeps
    rw [← hmax.round, combine]
    refine roundPlaces_mono 3 (le_min hmax.le_one (hbase.trans ?_))
    exact le_mul_of_one_le_right (hmax.nonneg.trans hbase) hprior
  confidence := by
    intro rule llm sim hr hl hs
    have hbase := strongest_le_base hr.le_one hl.le_one hs.le_one
    have hmax := (isConfidence_max (isConfidence_max hr hl) hs).nonneg
    have hprior := one_le_injectionPrior source
    exact IsConfidence.of_round
      (le_min zero_le_one (mul_nonneg (hmax.trans hbase) (by linarith))) (min_le_left _ _)
  distrust := by
    intro rule llm sim source' hr hl hs htrust
    have hbase := strongest_le_base hr.le_one hl.le_one hs.le_one
    have hmax := (isConfidence_max (isConfidence_max hr hl) hs).nonneg
    refine roundPlaces_mono 3 (min_le_min_left 1 (mul_le_mul_of_nonneg_left ?_ (hmax.trans hbase)))
    rw [injectionPrior, injectionPrior]
    linarith

end Combine

/-! ## The classifier -/

theorem clampUnit_bounds (x : PyFloat) : 0 ≤ clampUnit x ∧ clampUnit x ≤ 1 := by
  cases x with
  | finite q => exact ⟨le_min zero_le_one (le_max_left _ _), min_le_left _ _⟩
  | infinite negative =>
      rw [clampUnit]
      split
      · exact ⟨le_rfl, zero_le_one⟩
      · exact ⟨zero_le_one, le_rfl⟩
  | nan => exact ⟨le_rfl, zero_le_one⟩

/-- Whatever the model answers, its confidence is one. -/
theorem isConfidence_coerce {C : Conversions} {payload : PyValue} {model : String} {latencyMs : ℕ}
    {result : ClassifierResult} (h : coerce C payload model latencyMs = .ok result) :
    IsConfidence result.confidence := by
  have hdegraded : ∀ reason, IsConfidence (degradedResult reason model).confidence :=
    fun _ => ⟨0, Nat.zero_le _, by norm_num [degradedResult]⟩
  rw [coerce] at h
  split at h
  · obtain rfl := Except.ok.inj h
    exact hdegraded _
  · obtain rfl := Except.ok.inj h
    exact hdegraded _
  · obtain rfl := Except.ok.inj h
    exact hdegraded _
  · cases h
  · obtain rfl := Except.ok.inj h
    exact IsConfidence.of_round (clampUnit_bounds _).1 (clampUnit_bounds _).2

/-! ## The analysis -/

/-- **A bag of fields scores at least what each of its fields scores alone.** The deterministic score
is at most the full one, each layer gives a confidence, and the combination is faithful to them. -/
theorem never_diluted (R : Runtime) (E : Engine) (source : SourceType) (llm : ClassifierResult)
    (h0 : 0 ≤ llm.confidence) (h1 : llm.confidence ≤ 1) (fields : List (String × Text)) :
    (∀ field ∈ fields,
      (analyze R E source [field] llm).injectionConfidence ≤
        (analyze R E source fields llm).injectionConfidence ∧
      (analyze R E source [field] llm).deterministicConfidence ≤
        (analyze R E source fields llm).deterministicConfidence) ∧
    (analyze R E source fields llm).deterministicConfidence ≤
      (analyze R E source fields llm).injectionConfidence ∧
    IsConfidence (analyze R E source fields llm).ruleConfidence ∧
    IsConfidence (analyze R E source fields llm).similarityConfidence ∧
    Faithful source := by
  have hrules := isConfidence_rules E fields
  have hsimilarity := isConfidence_similarity E fields
  refine ⟨fun field hfield => ⟨?_, ?_⟩, ?_, hrules, hsimilarity, faithful source⟩
  · exact combine_mono source (rules_single_le hfield) le_rfl (similarity_single_le hfield)
      hrules.le_one h1 hsimilarity.le_one
  · exact combine_mono source (rules_single_le hfield) le_rfl (similarity_single_le hfield)
      hrules.le_one zero_le_one hsimilarity.le_one
  · exact combine_mono source le_rfl h0 le_rfl hrules.le_one h1 hsimilarity.le_one

/-- A field with an invisible character, beside one without. -/
theorem never_diluted_invisible :
    (analyze Scenario.runtime ⟨id, fun _ _ => none, id⟩ .email
        [("purpose", [Char.ofNat 0x200b])] { confidence := 1 / 2 }).injectionConfidence ≤
      (analyze Scenario.runtime ⟨id, fun _ _ => none, id⟩ .email
        [("merchant_content", ['a']), ("purpose", [Char.ofNat 0x200b])]
        { confidence := 1 / 2 }).injectionConfidence :=
  ((never_diluted Scenario.runtime ⟨id, fun _ _ => none, id⟩ .email { confidence := 1 / 2 }
    (by norm_num) (by norm_num) _).1 _ (List.mem_cons_of_mem _ List.mem_cons_self)).1

end AgentPay.Properties
