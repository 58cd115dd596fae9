import AgentPay.Analyzer.Window

/-!
# Words of one intent close together

What a cluster is documented to contribute depends on how many of its facets have words at distinct
positions in one window. The code asks instead whether all facets that occur anywhere in the text fit
one window, and lets one word stand for two of them. The two agree exactly on the texts that are
settled either way (`Settled`).
-/

set_option autoImplicit false

namespace AgentPay.Properties

open AgentPay.Library AgentPay.Analyzer

section Clusters

variable {tokens : List String} {cluster : IntentCluster}

/-- A word of the facet stands at the position. -/
def Stands (tokens facet : List String) (p : ℕ) : Prop := ∃ word ∈ facet, tokens[p]? = some word

/-- A position for each of the facets, all within the window of each other. -/
structure Spread (tokens : List String) (cluster : IntentCluster)
    (facets : Finset (Fin cluster.facets.length)) (pos : Fin cluster.facets.length → ℕ) : Prop where
  stands : ∀ i ∈ facets, Stands tokens (cluster.facets.get i) (pos i)
  close : ∀ i ∈ facets, ∀ j ∈ facets, pos i ≤ pos j + intentWindow

/-- The facets have words at pairwise distinct positions within the window of each other. -/
def CoOccur (tokens : List String) (cluster : IntentCluster)
    (facets : Finset (Fin cluster.facets.length)) : Prop :=
  ∃ pos, Spread tokens cluster facets pos ∧ Set.InjOn pos facets

open Classical in
/-- The largest number of facets that co-occur. -/
noncomputable def coOccurring (tokens : List String) (cluster : IntentCluster) : ℕ :=
  (Finset.univ.filter fun facets : Finset (Fin cluster.facets.length) =>
    CoOccur tokens cluster facets).sup Finset.card

/-- What a cluster is documented to contribute. -/
noncomputable def documented (tokens : List String) (cluster : IntentCluster) : ℚ :=
  if 2 ≤ coOccurring tokens cluster then
    min (75 / 100) (30 / 100 + 45 / 100 *
      ((coOccurring tokens cluster : ℚ) / cluster.facets.length))
  else 0

/-- The facets that occur anywhere in the text. -/
def occurring (tokens : List String) (cluster : IntentCluster) :
    Finset (Fin cluster.facets.length) :=
  Finset.univ.filter fun i => facetPositions tokens (cluster.facets.get i) ≠ []

/-- All facets that occur co-occur, or no two facets do and those that occur do not fit one window
either. -/
def Settled (tokens : List String) (cluster : IntentCluster) : Prop :=
  CoOccur tokens cluster (occurring tokens cluster) ∨
    (∀ i j, i ≠ j → ¬ CoOccur tokens cluster {i, j}) ∧
      ¬ (2 ≤ (occurring tokens cluster).card ∧
        ∃ pos, Spread tokens cluster (occurring tokens cluster) pos)

/-! ## Positions -/

theorem mem_facetPositions {facet : List String} {p : ℕ} :
    p ∈ facetPositions tokens facet ↔ Stands tokens facet p := by
  rw [facetPositions, List.mem_map]
  constructor
  · rintro ⟨⟨word, p'⟩, hword, rfl⟩
    obtain ⟨hmem, hfacet⟩ := List.mem_filter.1 hword
    exact ⟨word, List.contains_iff_mem.1 hfacet, List.mem_zipIdx_iff_getElem?.1 hmem⟩
  · rintro ⟨word, hfacet, hword⟩
    exact ⟨(word, p), List.mem_filter.2 ⟨List.mem_zipIdx_iff_getElem?.2 hword,
      List.contains_iff_mem.2 hfacet⟩, rfl⟩

theorem mem_occurring {i : Fin cluster.facets.length} :
    i ∈ occurring tokens cluster ↔ ∃ p, Stands tokens (cluster.facets.get i) p := by
  rw [occurring, Finset.mem_filter, and_iff_right (Finset.mem_univ _), ne_eq,
    List.eq_nil_iff_forall_not_mem, not_forall_not]
  exact exists_congr fun p => mem_facetPositions

theorem mem_hitPositions {hit : List ℕ} : hit ∈ hitPositions tokens cluster ↔
    ∃ i ∈ occurring tokens cluster, facetPositions tokens (cluster.facets.get i) = hit := by
  rw [hitPositions, List.mem_filter, List.mem_map]
  constructor
  · rintro ⟨⟨facet, hfacet, rfl⟩, hhit⟩
    obtain ⟨i, rfl⟩ := List.mem_iff_get.1 hfacet
    refine ⟨i, Finset.mem_filter.2 ⟨Finset.mem_univ _, fun hnil => ?_⟩, rfl⟩
    rw [hnil] at hhit
    exact absurd hhit Bool.false_ne_true
  · rintro ⟨i, hi, rfl⟩
    have hne := (Finset.mem_filter.1 hi).2
    refine ⟨⟨_, List.get_mem _ _, rfl⟩, ?_⟩
    rw [Bool.not_eq_true', List.isEmpty_eq_false_iff]
    exact hne

/-- Counting the members of a list by their indices. -/
theorem card_filter_get {α : Type} (p : α → Prop) [DecidablePred p] (l : List α) :
    (Finset.univ.filter fun i : Fin l.length => p (l.get i)).card = l.countP fun a => decide (p a) := by
  induction l with
  | nil => rfl
  | cons a l ih =>
      have hsucc := Fin.card_filter_univ_succ fun i : Fin (l.length + 1) => p ((a :: l).get i)
      have htail : (Finset.univ.filter fun i : Fin l.length =>
          p ((a :: l).get i.succ)).card = l.countP fun a => decide (p a) := ih
      rw [List.countP_cons, ← htail]
      by_cases ha : p a
      · rw [if_pos (decide_eq_true ha)]
        exact hsucc.trans (if_pos ha)
      · rw [if_neg (by simpa using ha)]
        exact hsucc.trans (if_neg ha)

/-- As many groups of positions as facets that occur. -/
theorem length_hitPositions (tokens : List String) (cluster : IntentCluster) :
    (hitPositions tokens cluster).length = (occurring tokens cluster).card := by
  rw [occurring, card_filter_get fun facet => facetPositions tokens facet ≠ [], hitPositions,
    ← List.countP_eq_length_filter, List.countP_map]
  refine List.countP_congr fun facet _ => ?_
  rw [Function.comp_apply, Bool.not_eq_true', List.isEmpty_eq_false_iff, decide_eq_true_eq]

/-- The loop of the code decides whether the facets that occur have positions in one window. -/
theorem withinWindow_hits (h : (occurring tokens cluster).Nonempty) :
    withinWindow (hitPositions tokens cluster) intentWindow = true ↔
      ∃ pos, Spread tokens cluster (occurring tokens cluster) pos := by
  rw [withinWindow_iff]
  constructor
  · rintro ⟨right, -, hall⟩
    have hposition : ∀ i : Fin cluster.facets.length, ∃ p, i ∈ occurring tokens cluster →
        Stands tokens (cluster.facets.get i) p ∧ p ≤ right ∧ right ≤ p + intentWindow := by
      intro i
      by_cases hi : i ∈ occurring tokens cluster
      · obtain ⟨p, hp, hwindow⟩ := hall _ (mem_hitPositions.2 ⟨i, hi, rfl⟩)
        exact ⟨p, fun _ => ⟨mem_facetPositions.1 hp, hwindow⟩⟩
      · exact ⟨0, fun h => absurd h hi⟩
    choose pos hpos using hposition
    exact ⟨pos, fun i hi => (hpos i hi).1,
      fun i hi j hj => (hpos i hi).2.1.trans (hpos j hj).2.2⟩
  · rintro ⟨pos, hspread⟩
    -- the window ends at the last of the positions
    obtain ⟨last, hlast, hmax⟩ := Finset.exists_max_image _ pos h
    refine ⟨pos last, ⟨_, mem_hitPositions.2 ⟨last, hlast, rfl⟩,
      mem_facetPositions.2 (hspread.stands last hlast)⟩, fun hit hhit => ?_⟩
    obtain ⟨i, hi, rfl⟩ := mem_hitPositions.1 hhit
    exact ⟨pos i, mem_facetPositions.2 (hspread.stands i hi), hmax i hi,
      hspread.close last hlast i hi⟩

/-! ## Facets that co-occur -/

variable {facets : Finset (Fin cluster.facets.length)}

theorem CoOccur.subset (h : CoOccur tokens cluster facets)
    {facets' : Finset (Fin cluster.facets.length)} (hsub : facets' ⊆ facets) :
    CoOccur tokens cluster facets' := by
  obtain ⟨pos, hspread, hinj⟩ := h
  exact ⟨pos, ⟨fun i hi => hspread.stands i (hsub hi),
    fun i hi j hj => hspread.close i (hsub hi) j (hsub hj)⟩, hinj.mono hsub⟩

theorem CoOccur.subset_occurring (h : CoOccur tokens cluster facets) :
    facets ⊆ occurring tokens cluster := by
  obtain ⟨pos, hspread, -⟩ := h
  exact fun i hi => mem_occurring.2 ⟨pos i, hspread.stands i hi⟩

theorem le_coOccurring (h : CoOccur tokens cluster facets) :
    facets.card ≤ coOccurring tokens cluster := by
  classical
  exact Finset.le_sup (f := Finset.card) (Finset.mem_filter.2 ⟨Finset.mem_univ _, h⟩)

theorem exists_coOccur (tokens : List String) (cluster : IntentCluster) :
    ∃ facets, CoOccur tokens cluster facets ∧ facets.card = coOccurring tokens cluster := by
  classical
  have hempty : CoOccur tokens cluster ∅ :=
    ⟨fun _ => 0, ⟨fun i hi => absurd hi (Finset.notMem_empty i),
      fun i hi => absurd hi (Finset.notMem_empty i)⟩, by simp⟩
  obtain ⟨facets, hfacets, hcard⟩ := Finset.exists_mem_eq_sup
    (Finset.univ.filter fun facets : Finset (Fin cluster.facets.length) =>
      CoOccur tokens cluster facets) ⟨∅, Finset.mem_filter.2 ⟨Finset.mem_univ _, hempty⟩⟩
    Finset.card
  refine ⟨facets, (Finset.mem_filter.1 hfacets).2, ?_⟩
  rw [← hcard, coOccurring]

theorem coOccurring_le_occurring (tokens : List String) (cluster : IntentCluster) :
    coOccurring tokens cluster ≤ (occurring tokens cluster).card := by
  obtain ⟨facets, hfacets, hcard⟩ := exists_coOccur tokens cluster
  rw [← hcard]
  exact Finset.card_le_card hfacets.subset_occurring

theorem occurring_le_facets (tokens : List String) (cluster : IntentCluster) :
    (occurring tokens cluster).card ≤ cluster.facets.length := by
  have hcard := Finset.card_le_univ (occurring tokens cluster)
  rwa [Fintype.card_fin] at hcard

/-- Two facets co-occur when at least two do. -/
theorem two_le_coOccurring_iff : 2 ≤ coOccurring tokens cluster ↔
    ∃ i j, i ≠ j ∧ CoOccur tokens cluster {i, j} := by
  constructor
  · intro h
    obtain ⟨facets, hfacets, hcard⟩ := exists_coOccur tokens cluster
    obtain ⟨i, hi, j, hj, hne⟩ := Finset.one_lt_card.1 (hcard ▸ h : 1 < facets.card)
    refine ⟨i, j, hne, hfacets.subset fun k hk => ?_⟩
    rcases Finset.mem_insert.1 hk with rfl | hk
    · exact hi
    · rwa [Finset.mem_singleton.1 hk]
  · rintro ⟨i, j, hne, h⟩
    rw [← Finset.card_pair hne]
    exact le_coOccurring h

/-! ## Scores -/

/-- The score of a number of facets. -/
def facetScore (k total : ℕ) : ℚ := min (75 / 100) (30 / 100 + 45 / 100 * ((k : ℚ) / total))

theorem facetScore_pos (k total : ℕ) : 0 < facetScore k total := by
  have hshare : (0 : ℚ) ≤ (k : ℚ) / total := by positivity
  exact lt_min (by norm_num) (by linarith)

/-- More facets, of as many, score more. -/
theorem facetScore_lt {k k' total : ℕ} (h : k < k') (hle : k' ≤ total) :
    facetScore k total < facetScore k' total := by
  have htotal : (0 : ℚ) < total := by exact_mod_cast (Nat.zero_lt_of_lt h).trans_le hle
  have hshare : (k : ℚ) / total < k' / total := by
    exact (div_lt_div_iff_of_pos_right htotal).2 (by exact_mod_cast h)
  have hone : (k' : ℚ) / total ≤ 1 := (div_le_one htotal).2 (by exact_mod_cast hle)
  rw [facetScore, facetScore, min_eq_right (by linarith), min_eq_right (by linarith)]
  linarith

theorem facetScore_injective {k k' total : ℕ} (hk : k ≤ total) (hk' : k' ≤ total)
    (h : facetScore k total = facetScore k' total) : k = k' := by
  rcases lt_trichotomy k k' with hlt | heq | hlt
  · exact absurd h (facetScore_lt hlt hk').ne
  · exact heq
  · exact absurd h (facetScore_lt hlt hk).ne'

theorem documented_eq (tokens : List String) (cluster : IntentCluster) :
    documented tokens cluster = if 2 ≤ coOccurring tokens cluster then
      facetScore (coOccurring tokens cluster) cluster.facets.length else 0 := rfl

/-- The code scores all facets that occur, or none. -/
theorem contribution_eq (tokens : List String) (cluster : IntentCluster) :
    (2 ≤ (occurring tokens cluster).card ∧
        (∃ pos, Spread tokens cluster (occurring tokens cluster) pos) ∧
        contribution tokens cluster =
          facetScore (occurring tokens cluster).card cluster.facets.length) ∨
      ¬ (2 ≤ (occurring tokens cluster).card ∧
        ∃ pos, Spread tokens cluster (occurring tokens cluster) pos) ∧
        contribution tokens cluster = 0 := by
  rw [contribution, length_hitPositions]
  by_cases htwo : (occurring tokens cluster).card < 2
  · rw [if_pos htwo]
    exact .inr ⟨fun h => absurd h.1 (Nat.not_le.2 htwo), rfl⟩
  · rw [if_neg htwo]
    have hnonempty := Finset.card_pos.1 (lt_of_lt_of_le Nat.zero_lt_two (not_lt.1 htwo))
    have hwindow := withinWindow_hits hnonempty
    cases hfits : withinWindow (hitPositions tokens cluster) intentWindow with
    | false =>
        rw [hfits] at hwindow
        exact .inr ⟨fun h => absurd (hwindow.2 h.2) Bool.false_ne_true, rfl⟩
    | true => exact .inl ⟨not_lt.1 htwo, hwindow.1 hfits, rfl⟩

/-- The code contributes what is documented exactly on the settled texts. -/
theorem contribution_eq_documented_iff :
    contribution tokens cluster = documented tokens cluster ↔ Settled tokens cluster := by
  have hle := coOccurring_le_occurring tokens cluster
  have hfacets := occurring_le_facets tokens cluster
  have hpairs : 2 ≤ coOccurring tokens cluster ↔ _ := two_le_coOccurring_iff
  rw [documented_eq]
  rcases contribution_eq tokens cluster with ⟨htwo, hspread, hscore⟩ | ⟨hnot, hscore⟩
  · rw [hscore]
    constructor
    · intro h
      by_cases hmany : 2 ≤ coOccurring tokens cluster
      · -- as many facets co-occur as occur
        rw [if_pos hmany] at h
        have hcard := facetScore_injective hfacets (hle.trans hfacets) h
        obtain ⟨facets, hco, heq⟩ := exists_coOccur tokens cluster
        have hall := Finset.eq_of_subset_of_card_le hco.subset_occurring (hcard.trans heq.symm).le
        exact .inl (hall ▸ hco)
      · rw [if_neg hmany] at h
        exact absurd h (facetScore_pos _ _).ne'
    · rintro (hco | ⟨-, hnot⟩)
      · have hcard := hle.antisymm (le_coOccurring hco)
        rw [hcard, if_pos htwo]
      · exact absurd ⟨htwo, hspread⟩ hnot
  · rw [hscore]
    constructor
    · intro h
      by_cases hmany : 2 ≤ coOccurring tokens cluster
      · rw [if_pos hmany] at h
        exact absurd h.symm (facetScore_pos _ _).ne'
      · exact .inr ⟨fun i j hne hco => hmany (hpairs.2 ⟨i, j, hne, hco⟩), hnot⟩
    · intro hsettled
      refine (if_neg fun hmany => ?_).symm
      rcases hsettled with hco | ⟨hnone, -⟩
      · obtain ⟨pos, hspread, -⟩ := hco
        exact hnot ⟨hmany.trans hle, pos, hspread⟩
      · obtain ⟨i, j, hne, hco⟩ := hpairs.1 hmany
        exact hnone i j hne hco

/-! ## More text -/

theorem Stands.shift {facet : List String} {p : ℕ} (h : Stands tokens facet p)
    (before after : List String) :
    Stands (before ++ tokens ++ after) facet (before.length + p) := by
  obtain ⟨word, hfacet, hword⟩ := h
  have hlt := (List.getElem?_eq_some_iff.1 hword).1
  refine ⟨word, hfacet, ?_⟩
  rw [List.append_assoc, List.getElem?_append_right (Nat.le_add_right _ _), Nat.add_sub_cancel_left,
    List.getElem?_append_left hlt, hword]

/-- Facets that co-occur do so in every longer text. -/
theorem CoOccur.shift (h : CoOccur tokens cluster facets) (before after : List String) :
    CoOccur (before ++ tokens ++ after) cluster facets := by
  obtain ⟨pos, hspread, hinj⟩ := h
  refine ⟨fun i => before.length + pos i, ⟨fun i hi => ?_, fun i hi j hj => ?_⟩, fun i hi j hj h => ?_⟩
  · exact (hspread.stands i hi).shift before after
  · have hclose := hspread.close i hi j hj
    omega
  · exact hinj hi hj (Nat.add_left_cancel h)

/-- What is documented never falls when text is put before or after. -/
theorem documented_mono (tokens before after : List String) (cluster : IntentCluster) :
    documented tokens cluster ≤ documented (before ++ tokens ++ after) cluster := by
  obtain ⟨facets, hco, hcard⟩ := exists_coOccur tokens cluster
  have hle := le_coOccurring (hco.shift before after)
  rw [hcard] at hle
  have htotal := (coOccurring_le_occurring (before ++ tokens ++ after) cluster).trans
    (occurring_le_facets _ _)
  rw [documented_eq, documented_eq]
  by_cases htwo : 2 ≤ coOccurring tokens cluster
  · rw [if_pos htwo, if_pos (htwo.trans hle)]
    rcases hle.lt_or_eq with hlt | heq
    · exact (facetScore_lt hlt htotal).le
    · rw [heq]
  · rw [if_neg htwo]
    split
    · exact (facetScore_pos _ _).le
    · exact le_rfl

/-- A text in which the words of the cluster stand at one position only has no documented score. -/
theorem documented_single {p : ℕ} (h : ∀ facet ∈ cluster.facets, ∀ q, Stands tokens facet q → q = p) :
    documented tokens cluster = 0 := by
  rw [documented_eq, if_neg]
  rw [two_le_coOccurring_iff]
  rintro ⟨i, j, hne, pos, hspread, hinj⟩
  have hi : i ∈ ({i, j} : Finset _) := Finset.mem_insert_self i _
  have hj : j ∈ ({i, j} : Finset _) := Finset.mem_insert_of_mem (Finset.mem_singleton.2 rfl)
  refine hne (hinj hi hj ?_)
  rw [h _ (List.get_mem _ _) _ (hspread.stands i hi), h _ (List.get_mem _ _) _ (hspread.stands j hj)]

end Clusters

/-- **A cluster contributes what is documented exactly on the settled texts.** On these, more text
never lowers the score, and words at one position score nothing. -/
theorem clusters_fire_iff (tokens : List String) :
    (∀ cluster : IntentCluster,
      contribution tokens cluster = documented tokens cluster ↔ Settled tokens cluster) ∧
    (∀ before after : List String,
      (∀ cluster ∈ intentClusters,
        Settled tokens cluster ∧ Settled (before ++ tokens ++ after) cluster) →
      (intentScore tokens).1 ≤ (intentScore (before ++ tokens ++ after)).1) ∧
    (∀ p : ℕ,
      (∀ cluster ∈ intentClusters, Settled tokens cluster ∧
        ∀ facet ∈ cluster.facets, ∀ q, Stands tokens facet q → q = p) →
      (intentScore tokens).1 = 0) := by
  refine ⟨fun _ => contribution_eq_documented_iff, fun before after h => ?_, fun p h => ?_⟩
  · rw [intentScore_fst, intentScore_fst]
    refine strongest_le (strongest_nonneg _) fun w hw => ?_
    obtain ⟨cluster, hcluster, rfl⟩ := List.mem_map.1 hw
    have hlong : contribution (before ++ tokens ++ after) cluster ∈
        intentClusters.map (contribution (before ++ tokens ++ after)) :=
      List.mem_map_of_mem hcluster
    refine le_trans ?_ (le_strongest hlong)
    obtain ⟨hsettled, hsettled'⟩ := h cluster hcluster
    rw [contribution_eq_documented_iff.2 hsettled, contribution_eq_documented_iff.2 hsettled']
    exact documented_mono tokens before after cluster
  · rw [intentScore_fst]
    refine le_antisymm (strongest_le le_rfl fun w hw => ?_) (strongest_nonneg _)
    obtain ⟨cluster, hcluster, rfl⟩ := List.mem_map.1 hw
    obtain ⟨hsettled, hsingle⟩ := h cluster hcluster
    rw [contribution_eq_documented_iff.2 hsettled, documented_single hsingle]

/-- The word "payout" belongs to two facets of one cluster and fires alone; and a far-away word of a
further facet silences four words of a cluster that stand together. -/
theorem lone_word_fires :
    (∃ cluster ∈ intentClusters, contribution ["payout"] cluster = 21 / 40 ∧
      documented ["payout"] cluster = 0) ∧
    (intentScore ["payout"]).1 = 21 / 40 ∧
    (intentScore ["send", "the", "payment", "to", "another"]).1 = 51 / 80 ∧
    (intentScore (["send", "the", "payment", "to", "another"] ++
      (List.replicate 20 "and" ++ ["iban"]))).1 = 0 := by
  have hposition : ∀ facet : List String, ∀ q, Stands ["payout"] facet q → q = 0 := by
    rintro facet q ⟨word, -, hword⟩
    exact Nat.lt_one_iff.1 (List.getElem?_eq_some_iff.1 hword).1
  refine ⟨⟨intentClusters.get ⟨2, by decide⟩, List.get_mem _ _, by decide +kernel, ?_⟩, ?_, ?_, ?_⟩
  · exact documented_single fun facet _ => hposition facet
  · decide +kernel
  · decide +kernel
  · decide +kernel

end AgentPay.Properties
