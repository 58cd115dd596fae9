import AgentPay.Library.Normalization
import AgentPay.Properties.Dilution

/-!
# Invisible characters

The analyzer normalises a text by NFKC first and takes the invisible characters out afterwards. NFKC
leaves them where they are, so one that was put between a letter and its mark keeps the two from being
composed. What the analyzer makes of the text is unchanged exactly when NFKC does not act across the
places of the insertions, and a second pass changes nothing exactly when it does not act across the
invisible characters of the text.
-/

set_option autoImplicit false

namespace AgentPay.Properties

open AgentPay.Library AgentPay.Gateway AgentPay.Analyzer

/-- The no-break space. -/
def noBreakSpace : Char := Char.ofNat 0xa0

/-- NFKC as a normalisation. Among its inert characters are the invisible ones, the space and the
tab; the no-break space comes apart into a space, and nothing into an invisible character. -/
structure Nfkc extends Normalization Char where
  inert_iff : ∀ c, Inert c ↔ isInvisible c = true ∨ c = ' ' ∨ c = '\t'
  noBreak : decomposition noBreakSpace = [' ']
  invisible : ∀ c, ∀ d ∈ decomposition c, isInvisible d = true → d = c

/-- The text without its invisible characters. -/
def visible (text : Text) : Text := text.filter fun c => !isInvisible c

/-- The stretches of a text between its invisible characters. -/
def stretches (text : Text) : List Text := text.splitOnP isInvisible

/-! ## Blanks -/

section Blanks

theorem isBlank_iff {c : Char} : isBlank c = true ↔ c = ' ' ∨ c = '\t' ∨ c = noBreakSpace := by
  have hnat : ∀ {a : Char}, c.toNat = a.toNat ↔ c = a := Char.toNat_inj
  rw [isBlank, Bool.or_eq_true, Bool.or_eq_true, beq_iff_eq, beq_iff_eq, beq_iff_eq, or_assoc]
  exact or_congr_right (or_congr_right (hnat (a := noBreakSpace)))

theorem isBlank_space : isBlank ' ' = true := by decide

/-- A text without blanks stands in front of what is collapsed. -/
theorem collapse_append {text : Text} (h : ∀ c ∈ text, isBlank c = false) (inside : Bool)
    (rest : Text) : collapse isBlank inside (text ++ rest) =
      text ++ collapse isBlank (inside && text.isEmpty) rest := by
  induction text generalizing inside with
  | nil => rw [List.nil_append, List.nil_append, List.isEmpty_nil, Bool.and_true]
  | cons c text ih =>
      obtain ⟨hc, htext⟩ := List.forall_mem_cons.1 h
      rw [List.cons_append, collapse, hc, if_neg Bool.false_ne_true, ih htext, Bool.false_and,
        List.isEmpty_cons, Bool.and_false, List.cons_append]

theorem collapse_nil (inside : Bool) : collapse isBlank inside [] = [] := by
  cases inside <;> rfl

theorem collapse_blank {c : Char} (h : isBlank c = true) (inside : Bool) (rest : Text) :
    collapse isBlank inside (c :: rest) =
      (if inside then [] else [' ']) ++ collapse isBlank true rest := by
  rw [collapse, if_pos h]
  cases inside <;> rfl

/-- Collapsing twice is collapsing once. -/
theorem collapse_collapse (inside : Bool) (text : Text) :
    collapse isBlank inside (collapse isBlank inside text) = collapse isBlank inside text := by
  induction text generalizing inside with
  | nil => rw [collapse_nil, collapse_nil]
  | cons c text ih =>
      by_cases hc : isBlank c = true
      · rw [collapse_blank hc]
        cases inside with
        | true => exact ih true
        | false =>
            rw [if_neg Bool.false_ne_true, List.singleton_append, collapse_blank isBlank_space,
              if_neg Bool.false_ne_true, List.singleton_append, ih]
      · rw [collapse, if_neg hc, collapse, if_neg hc, ih]

/-- Collapsing puts in spaces only. -/
theorem mem_collapse {text : Text} {inside : Bool} {c : Char}
    (h : c ∈ collapse isBlank inside text) : c ∈ text ∨ c = ' ' := by
  induction text generalizing inside with
  | nil =>
      rw [collapse_nil] at h
      exact absurd h List.not_mem_nil
  | cons d text ih =>
      by_cases hd : isBlank d = true
      · rw [collapse_blank hd] at h
        rcases List.mem_append.1 h with h | h
        · cases inside with
          | true => exact absurd h List.not_mem_nil
          | false => exact .inr (List.mem_singleton.1 h)
        · exact (ih h).imp_left (List.mem_cons_of_mem _)
      · rw [collapse, if_neg hd] at h
        rcases List.mem_cons.1 h with rfl | h
        · exact .inl List.mem_cons_self
        · exact (ih h).imp_left (List.mem_cons_of_mem _)

end Blanks

/-! ## Visible texts -/

section Visible

theorem visible_append (a b : Text) : visible (a ++ b) = visible a ++ visible b :=
  List.filter_append ..

theorem visible_eq_self {text : Text} (h : ∀ c ∈ text, isInvisible c = false) :
    visible text = text := by
  refine List.filter_eq_self.2 fun c hc => ?_
  rw [h c hc]
  rfl

theorem visible_cons_invisible {c : Char} (h : isInvisible c = true) (text : Text) :
    visible (c :: text) = visible text := by
  rw [visible, List.filter_cons, h]
  rfl

theorem visible_cons {c : Char} (h : isInvisible c = false) (text : Text) :
    visible (c :: text) = c :: visible text := by
  rw [visible, List.filter_cons, h]
  rfl

theorem visible_invisible {text : Text} (h : ∀ c ∈ text, isInvisible c = true) :
    visible text = [] := by
  refine List.filter_eq_nil_iff.2 fun c hc => ?_
  rw [h c hc]
  exact Bool.false_ne_true

theorem notMem_visible {text : Text} : ∀ c ∈ visible text, isInvisible c = false := by
  intro c hc
  simpa using (List.mem_filter.1 hc).2

/-- The stretches make up the visible text. -/
theorem flatten_stretches (text : Text) : (stretches text).flatten = visible text := by
  induction text with
  | nil => rfl
  | cons c text ih =>
      rw [stretches, List.splitOnP_cons_eq_if_modifyHead]
      by_cases hc : isInvisible c = true
      · rw [if_pos hc, List.flatten_cons, List.nil_append, visible_cons_invisible hc]
        exact ih
      · rw [if_neg hc, visible_cons (Bool.not_eq_true _ ▸ hc), ← ih, stretches]
        obtain ⟨head, tail, hsplit⟩ :=
          List.exists_cons_of_ne_nil (List.splitOnP_ne_nil isInvisible text)
        rw [hsplit]
        rfl

end Visible

/-! ## NFKC -/

namespace Nfkc

variable (N : Nfkc)

theorem inert_of_invisible {c : Char} (h : isInvisible c = true) : N.Inert c :=
  (N.inert_iff c).2 (.inl h)

/-- There is no no-break space in a normal form. -/
theorem noBreakSpace_notMem (text : Text) : noBreakSpace ∉ N.normal text := by
  intro h
  rcases N.canonical_new h with h | h
  · have hapart := Normalization.apart_decomposed (N := N.toNormalization) text _ h
    rw [N.noBreak] at hapart
    exact absurd hapart (by decide)
  · rw [N.noBreak] at h
    exact absurd h (by decide)

/-- A blank of a normal form is inert. -/
theorem isBlank_of_mem {text : Text} {c : Char} (h : c ∈ N.normal text) (hinert : ¬ N.Inert c) :
    isBlank c = false := by
  rw [Bool.eq_false_iff]
  intro hblank
  rcases isBlank_iff.1 hblank with hspace | htab | hbreak
  · exact hinert ((N.inert_iff c).2 (.inr (.inl hspace)))
  · exact hinert ((N.inert_iff c).2 (.inr (.inr htab)))
  · exact N.noBreakSpace_notMem text (hbreak ▸ h)

theorem isBlank_of_inert {c : Char} (h : N.Inert c) (hvisible : isInvisible c = false) :
    isBlank c = true := by
  rcases (N.inert_iff c).1 h with hin | hspace | htab
  · rw [hvisible] at hin
    cases hin
  · exact isBlank_iff.2 (.inl hspace)
  · exact isBlank_iff.2 (.inr (.inl htab))

theorem isInvisible_of_free {text : Text} (h : N.Free text) :
    ∀ c ∈ text, isInvisible c = false := by
  intro c hc
  rw [Bool.eq_false_iff]
  exact fun hin => h c hc (N.inert_of_invisible hin)

/-- A text without invisible characters has a normal form without them. -/
theorem isInvisible_normal {text : Text} (h : ∀ c ∈ text, isInvisible c = false) :
    ∀ c ∈ N.normal text, isInvisible c = false := by
  intro c hc
  rw [Bool.eq_false_iff]
  intro hin
  have hmem := Normalization.mem_of_mem_canonical (N.inert_of_invisible hin) hc
  obtain ⟨d, hd, hdc⟩ := List.mem_flatMap.1 hmem
  rw [N.invisible d c hdc hin, h d hd] at hin
  cases hin

/-- The normal form is cut at an invisible character, which is then taken out. -/
theorem visible_normal_cut {c : Char} (hc : isInvisible c = true) (a b : Text) :
    visible (N.normal (a ++ c :: b)) = visible (N.normal a) ++ visible (N.normal b) := by
  rw [Normalization.normal_inert (N.inert_of_invisible hc), visible_append,
    visible_cons_invisible hc]

/-- Invisible characters in front leave nothing behind. -/
theorem visible_normal_invisible {inserted : Text} (h : ∀ c ∈ inserted, isInvisible c = true)
    (text : Text) : visible (N.normal (inserted ++ text)) = visible (N.normal text) := by
  induction inserted with
  | nil => rfl
  | cons c inserted ih =>
      obtain ⟨hc, hrest⟩ := List.forall_mem_cons.1 h
      have hcut := N.visible_normal_cut hc [] (inserted ++ text)
      rw [Normalization.normal_eq_nil_iff.2 rfl] at hcut
      exact hcut.trans (ih hrest)

/-- Insertions cut the text into parts that are normalised by themselves. -/
theorem visible_normal_insertions {rest : List (Text × Text)}
    (h : ∀ r ∈ rest, r.1 ≠ [] ∧ ∀ c ∈ r.1, isInvisible c = true) (first : Text) :
    visible (N.normal (first ++ rest.flatMap fun r => r.1 ++ r.2)) =
      visible (N.normal first ++ rest.flatMap fun r => N.normal r.2) := by
  induction rest generalizing first with
  | nil => rw [List.flatMap_nil, List.flatMap_nil, List.append_nil, List.append_nil]
  | cons r rest ih =>
      obtain ⟨⟨hne, hinvisible⟩, hrest⟩ := List.forall_mem_cons.1 h
      obtain ⟨inserted, part⟩ := r
      obtain ⟨c, more, rfl⟩ := List.exists_cons_of_ne_nil hne
      obtain ⟨hc, hmore⟩ := List.forall_mem_cons.1 hinvisible
      have htext : first ++ ((c :: more, part) :: rest).flatMap (fun r => r.1 ++ r.2) =
          first ++ c :: (more ++ (part ++ rest.flatMap fun r => r.1 ++ r.2)) := by
        rw [List.flatMap_cons]
        simp only [List.cons_append, List.append_assoc]
      rw [htext, N.visible_normal_cut hc, N.visible_normal_invisible hmore, ih hrest,
        List.flatMap_cons, visible_append, visible_append, visible_append]

/-- So do the invisible characters of the text itself. -/
theorem visible_normal_stretches (text : Text) :
    visible (N.normal text) = (stretches text).flatMap N.normal := by
  have hread : ∀ (text a : Text), (∀ c ∈ a, isInvisible c = false) →
      visible (N.normal (a ++ text)) =
        ((stretches text).modifyHead (a ++ ·)).flatMap N.normal := by
    intro text
    induction text with
    | nil =>
        intro a ha
        have hhead : (stretches []).modifyHead (a ++ ·) = [a ++ []] := rfl
        rw [hhead, List.flatMap_singleton, List.append_nil,
          visible_eq_self (N.isInvisible_normal ha)]
    | cons c text ih =>
        intro a ha
        rw [stretches, List.splitOnP_cons_eq_if_modifyHead]
        by_cases hc : isInvisible c = true
        · rw [if_pos hc, N.visible_normal_cut hc, visible_eq_self (N.isInvisible_normal ha)]
          have hrest := ih [] fun d hd => absurd hd List.not_mem_nil
          have hid : (stretches text).modifyHead ([] ++ ·) = stretches text := by
            cases stretches text <;> rfl
          rw [hid, List.nil_append] at hrest
          rw [hrest, List.modifyHead_cons, List.append_nil, List.flatMap_cons, stretches]
        · rw [if_neg hc, List.append_cons, ih, List.modifyHead_modifyHead, stretches]
          · congr 2
            funext head
            exact (List.append_cons ..).symm
          · intro d hd
            rcases List.mem_append.1 hd with hd | hd
            · exact ha d hd
            · rw [List.mem_singleton.1 hd]
              exact Bool.eq_false_iff.2 hc
  have hid : (stretches text).modifyHead ([] ++ ·) = stretches text := by
    cases stretches text <;> rfl
  have hall := hread text [] fun d hd => absurd hd List.not_mem_nil
  rwa [hid] at hall

/-! ## What collapsing hides -/

/-- A text without inert characters has no blanks and no invisible characters, and neither has its
normal form. -/
theorem word_of_free {a : Text} (htame : N.Tame a) (hbreak : noBreakSpace ∉ a) (hfree : N.Free a) :
    (∀ c ∈ a, isBlank c = false) ∧ (∀ c ∈ N.normal a, isBlank c = false) ∧
      visible a = a ∧ visible (N.normal a) = N.normal a := by
  have hnormal : N.Free (N.normal a) := (htame.apart hfree).canonical
  refine ⟨fun c hc => ?_, fun c hc => N.isBlank_of_mem hc (hnormal c hc),
    visible_eq_self (N.isInvisible_of_free hfree), visible_eq_self (N.isInvisible_of_free hnormal)⟩
  rw [Bool.eq_false_iff]
  intro hblank
  rcases isBlank_iff.1 hblank with hspace | htab | hnobreak
  · exact hfree c hc ((N.inert_iff c).2 (.inr (.inl hspace)))
  · exact hfree c hc ((N.inert_iff c).2 (.inr (.inr htab)))
  · exact hbreak (hnobreak ▸ hc)

theorem collapse_word {a : Text} (h : ∀ c ∈ a, isBlank c = false) (inside : Bool) :
    collapse isBlank inside a = a := by
  have hwhole := collapse_append h inside []
  rwa [List.append_nil, collapse_nil, List.append_nil] at hwhole

/-- A text of normal parts and its normal form look the same, once collapsed, only when they are. -/
theorem normal_eq_of_collapse {text : Text} (htame : N.Tame text)
    (hbreak : noBreakSpace ∉ text) {inside : Bool}
    (h : collapse isBlank inside (visible (N.normal text)) =
      collapse isBlank inside (visible text)) : N.normal text = text := by
  revert htame hbreak inside
  refine N.inert_induction (p := fun text => N.Tame text → noBreakSpace ∉ text →
    ∀ {inside : Bool}, collapse isBlank inside (visible (N.normal text)) =
      collapse isBlank inside (visible text) → N.normal text = text) ?_ ?_ text
  · intro a hfree htame hbreak inside h
    obtain ⟨hblank, hblank', hvisible, hvisible'⟩ := N.word_of_free htame hbreak hfree
    rwa [hvisible, hvisible', collapse_word hblank, collapse_word hblank'] at h
  · intro a c b hfree hc ih htame hbreak inside h
    obtain ⟨hleft, hright⟩ := htame.of_append
    have htail : N.Tame b := fun d hd => hright d (List.mem_cons_of_mem _ hd)
    have hbreaks : noBreakSpace ∉ a ∧ noBreakSpace ∉ b :=
      ⟨fun hin => hbreak (List.mem_append_left _ hin),
        fun hin => hbreak (List.mem_append_right _ (List.mem_cons_of_mem _ hin))⟩
    obtain ⟨hblank, hblank', hvisible, hvisible'⟩ := N.word_of_free hleft hbreaks.1 hfree
    rw [Normalization.normal_inert hc, visible_append, visible_append, hvisible, hvisible',
      collapse_append hblank, collapse_append hblank'] at h
    have hword : N.normal a = a :=
      Normalization.eq_of_append_eq h (Normalization.length_apart_normal a)
    rw [hword] at h
    have hrest := List.append_cancel_left h
    rw [Normalization.normal_inert hc, hword]
    congr 2
    -- an invisible character is taken out, a blank is collapsed with what follows
    by_cases hin : isInvisible c = true
    · rw [visible_cons_invisible hin, visible_cons_invisible hin] at hrest
      exact ih htail hbreaks.2 hrest
    · have hin := Bool.eq_false_iff.2 hin
      have hcblank := N.isBlank_of_inert hc hin
      rw [visible_cons hin, visible_cons hin, collapse_blank hcblank, collapse_blank hcblank]
        at hrest
      exact ih htail hbreaks.2 (List.append_cancel_left hrest)

/-- The normal form of a collapsed text is the collapsed normal form. -/
theorem normal_collapse {text : Text} (htame : N.Tame text) (hbreak : noBreakSpace ∉ text)
    (hvisible : ∀ c ∈ text, isInvisible c = false) (inside : Bool) :
    N.normal (collapse isBlank inside text) = collapse isBlank inside (N.normal text) := by
  revert htame hbreak hvisible inside
  refine N.inert_induction (p := fun text => N.Tame text → noBreakSpace ∉ text →
    (∀ c ∈ text, isInvisible c = false) → ∀ inside, N.normal (collapse isBlank inside text) =
      collapse isBlank inside (N.normal text)) ?_ ?_ text
  · intro a hfree htame hbreak hvisible inside
    obtain ⟨hblank, hblank', -, -⟩ := N.word_of_free htame hbreak hfree
    rw [collapse_word hblank, collapse_word hblank']
  · intro a c b hfree hc ih htame hbreak hvisible inside
    obtain ⟨hleft, hright⟩ := htame.of_append
    have htail : N.Tame b := fun d hd => hright d (List.mem_cons_of_mem _ hd)
    have hbreaks : noBreakSpace ∉ a ∧ noBreakSpace ∉ b :=
      ⟨fun hin => hbreak (List.mem_append_left _ hin),
        fun hin => hbreak (List.mem_append_right _ (List.mem_cons_of_mem _ hin))⟩
    obtain ⟨hblank, hblank', -, -⟩ := N.word_of_free hleft hbreaks.1 hfree
    have hcblank := N.isBlank_of_inert hc
      (hvisible c (List.mem_append_right _ List.mem_cons_self))
    have hrest := ih htail hbreaks.2
      (fun d hd => hvisible d (List.mem_append_right _ (List.mem_cons_of_mem _ hd))) true
    have hempty : (N.normal a).isEmpty = a.isEmpty := by
      rw [Bool.eq_iff_iff, List.isEmpty_iff, List.isEmpty_iff, Normalization.normal_eq_nil_iff]
    have hspace : N.Inert ' ' := (N.inert_iff ' ').2 (.inr (.inl rfl))
    rw [collapse_append hblank, collapse_blank hcblank, Normalization.normal_inert hc,
      collapse_append hblank', collapse_blank hcblank, hempty]
    cases hinside : inside && a.isEmpty with
    | true =>
        -- nothing stands between this run of blanks and the one before
        obtain rfl := List.isEmpty_iff.1 (Bool.and_eq_true_iff.1 hinside).2
        rw [if_pos rfl, List.nil_append, List.nil_append, Normalization.normal_eq_nil_iff.2 rfl,
          List.nil_append]
        exact hrest
    | false =>
        rw [if_neg Bool.false_ne_true, List.singleton_append, List.singleton_append,
          Normalization.normal_inert hspace, hrest]

end Nfkc

/-! ## The analyzer -/

section Analyzer

variable (N : Nfkc) (search : String → Text → Option (ℕ × ℕ)) (lower : Text → Text)

/-- An engine that normalises by NFKC. -/
def Nfkc.engine : Engine := ⟨N.normal, search, lower⟩

variable {N search lower}

theorem normalize_eq (text : Text) : normalize (N.engine search lower) text =
    collapse isBlank false (visible (N.normal text)) := rfl

/-- A text of normal parts has no no-break space. -/
theorem noBreakSpace_notMem_parts (parts : List Text) :
    noBreakSpace ∉ parts.flatMap N.normal := by
  intro h
  obtain ⟨part, -, h⟩ := List.mem_flatMap.1 h
  exact N.noBreakSpace_notMem part h

/-- A text of normal parts is normalised to what its normal form is only when it is normal. -/
theorem normal_parts_iff (parts : List Text) :
    collapse isBlank false (visible (parts.flatMap N.normal)) =
        collapse isBlank false (visible (N.normal parts.flatten)) ↔
      N.normal parts.flatten = parts.flatMap N.normal := by
  have htame := Normalization.tame_flatMap_normal (N := N.toNormalization) parts
  have hnormal := Normalization.normal_flatMap_normal (N := N.toNormalization) parts
  constructor
  · intro h
    rw [← hnormal] at h ⊢
    exact N.normal_eq_of_collapse htame (noBreakSpace_notMem_parts parts) h.symm
  · intro h
    rw [h]

theorem parts_eq (first : Text) (rest : List (Text × Text)) :
    (first :: rest.map Prod.snd).flatten = first ++ rest.flatMap Prod.snd ∧
      (first :: rest.map Prod.snd).flatMap N.normal =
        N.normal first ++ rest.flatMap fun r => N.normal r.2 := by
  refine ⟨?_, ?_⟩
  · rw [List.flatten_cons, List.flatMap_def]
  · rw [List.flatMap_cons, List.flatMap_map]

/-- Normalising twice is normalising the normal form of the visible text. -/
theorem normalize_normalize (text : Text) :
    normalize (N.engine search lower) (normalize (N.engine search lower) text) =
      collapse isBlank false (visible (N.normal (visible text))) := by
  have htame := Normalization.tame_flatMap_normal (N := N.toNormalization) (stretches text)
  have hbreak := noBreakSpace_notMem_parts (N := N) (stretches text)
  have hstretches := N.visible_normal_stretches text
  have hvisible : ∀ c ∈ (stretches text).flatMap N.normal, isInvisible c = false := by
    rw [← hstretches]
    exact notMem_visible
  have hspace : isInvisible ' ' = false := by decide
  have hcollapsed : ∀ c ∈ collapse isBlank false (N.normal ((stretches text).flatMap N.normal)),
      isInvisible c = false := by
    intro c hc
    rcases mem_collapse hc with hc | rfl
    · exact N.isInvisible_normal hvisible c hc
    · exact hspace
  have hflatten := Normalization.normal_flatMap_normal (N := N.toNormalization) (stretches text)
  rw [normalize_eq, normalize_eq, hstretches, N.normal_collapse htame hbreak hvisible,
    visible_eq_self hcollapsed, collapse_collapse, hflatten, flatten_stretches,
    visible_eq_self (N.isInvisible_normal notMem_visible)]

end Analyzer

/-- Texts with one normalised form have the same findings, unless the first is empty and has none. -/
theorem findings_subset {E : Engine} {name : String} {text text' : Text}
    (h : normalize E text' = normalize E text) (hsub : text ⊆ text') :
    (Rules.scan E [(name, text)]).findings ⊆ (Rules.scan E [(name, text')]).findings := by
  rw [Rules.scan, Rules.scan, List.flatMap_singleton, List.flatMap_singleton]
  intro f hf
  rw [fieldFindings] at hf ⊢
  split at hf
  · exact absurd hf List.not_mem_nil
  · next hne =>
      obtain ⟨c, hc⟩ := List.exists_mem_of_ne_nil _ (mt List.isEmpty_iff.2 hne)
      have hne' : ¬ text'.isEmpty = true := by
        intro hempty
        rw [List.isEmpty_iff.1 hempty] at hsub
        exact absurd (hsub hc) List.not_mem_nil
      rwa [if_neg hne', h]

/-- Texts with one normalised form have the same similarity, unless the first is blank and has
none. -/
theorem similarity_le {E : Engine} {name : String} {text text' : Text}
    (h : normalize E text' = normalize E text) (hsub : text ⊆ text') :
    (Similarity.scan E [(name, text)]).confidence ≤ (Similarity.scan E [(name, text')]).confidence := by
  by_cases hblank : text.all isSpace = true
  · have hzero : (Similarity.scan E [(name, text)]).confidence = 0 := by
      rw [Similarity.scan, List.foldl_cons, List.foldl_nil, similarityStep, if_pos hblank]
      exact roundPlaces_natCast 3 0
    rw [hzero]
    exact (isConfidence_similarity E _).nonneg
  · have hblank' : ¬ text'.all isSpace = true := by
      intro hall
      exact hblank (List.all_eq_true.2 fun c hc => List.all_eq_true.1 hall c (hsub hc))
    refine le_of_eq ?_
    rw [Similarity.scan, Similarity.scan, List.foldl_cons, List.foldl_nil, List.foldl_cons,
      List.foldl_nil, similarityStep, similarityStep, if_neg hblank, if_neg hblank', h]

/-- **Insertions of invisible characters change nothing exactly when NFKC does not act across them**,
and a second pass changes nothing exactly when NFKC does not act across the invisible characters of
the text. Where insertions change nothing, no finding is lost and no similarity. -/
theorem invisible_iff (N : Nfkc) (search : String → Text → Option (ℕ × ℕ)) (lower : Text → Text) :
    (∀ (first : Text) (rest : List (Text × Text)),
      (∀ r ∈ rest, r.1 ≠ [] ∧ ∀ c ∈ r.1, isInvisible c = true) →
      (normalize (N.engine search lower) (first ++ rest.flatMap fun r => r.1 ++ r.2) =
          normalize (N.engine search lower) (first ++ rest.flatMap Prod.snd) ↔
        N.normal (first ++ rest.flatMap Prod.snd) =
          N.normal first ++ rest.flatMap fun r => N.normal r.2)) ∧
    (∀ text : Text, normalize (N.engine search lower) (normalize (N.engine search lower) text) =
        normalize (N.engine search lower) text ↔
      N.normal (visible text) = (stretches text).flatMap N.normal) ∧
    (∀ (name : String) (first : Text) (rest : List (Text × Text)),
      (∀ r ∈ rest, r.1 ≠ [] ∧ ∀ c ∈ r.1, isInvisible c = true) →
      N.normal (first ++ rest.flatMap Prod.snd) =
        N.normal first ++ rest.flatMap (fun r => N.normal r.2) →
      (Rules.scan (N.engine search lower) [(name, first ++ rest.flatMap Prod.snd)]).findings ⊆
          (Rules.scan (N.engine search lower)
            [(name, first ++ rest.flatMap fun r => r.1 ++ r.2)]).findings ∧
        (Similarity.scan (N.engine search lower)
            [(name, first ++ rest.flatMap Prod.snd)]).confidence ≤
          (Similarity.scan (N.engine search lower)
            [(name, first ++ rest.flatMap fun r => r.1 ++ r.2)]).confidence) := by
  refine ⟨fun first rest hrest => ?_, fun text => ?_, fun name first rest hrest hsplit => ?_⟩
  · obtain ⟨hflatten, hparts⟩ := parts_eq (N := N) first rest
    rw [normalize_eq, normalize_eq, N.visible_normal_insertions hrest, ← hflatten, ← hparts]
    exact normal_parts_iff _
  · have hvisible : visible ((stretches text).flatMap N.normal) =
        (stretches text).flatMap N.normal := by
      rw [← N.visible_normal_stretches]
      exact visible_eq_self notMem_visible
    have honce : normalize (N.engine search lower) text =
        collapse isBlank false (visible ((stretches text).flatMap N.normal)) := by
      rw [normalize_eq, N.visible_normal_stretches, hvisible]
    have hiff := normal_parts_iff (N := N) (stretches text)
    rw [flatten_stretches] at hiff
    rw [normalize_normalize, honce, ← hiff]
    exact eq_comm
  · -- the texts have one normalised form, so the layers see no difference
    have hsame : normalize (N.engine search lower) (first ++ rest.flatMap fun r => r.1 ++ r.2) =
        normalize (N.engine search lower) (first ++ rest.flatMap Prod.snd) := by
      rw [normalize_eq, normalize_eq, N.visible_normal_insertions hrest, hsplit]
    have hsub : first ++ rest.flatMap Prod.snd ⊆ first ++ rest.flatMap fun r => r.1 ++ r.2 := by
      refine List.append_subset.2 ⟨List.subset_append_left _ _, fun c hc => ?_⟩
      obtain ⟨r, hr, hc⟩ := List.mem_flatMap.1 hc
      exact List.mem_append_right _ (List.mem_flatMap.2 ⟨r, hr, List.mem_append_right _ hc⟩)
    exact ⟨findings_subset hsame hsub, similarity_le hsame hsub⟩

/-! ## A letter and its mark -/

/-- The combining acute accent, and the letter e with it. -/
def acuteMark : Char := Char.ofNat 0x301

def eAcute : Char := Char.ofNat 0xe9

/-- The zero-width space. -/
def zeroWidthSpace : Char := Char.ofNat 0x200b

/-- The composition of an e and the mark after it. -/
def composeAcute : Text → Text
  | [] => []
  | [c] => [c]
  | c :: d :: text =>
      if c = 'e' ∧ d = acuteMark then eAcute :: composeAcute text
      else c :: composeAcute (d :: text)

/-- The decomposition of the letter and of the no-break space. -/
def decomposeAcute (c : Char) : Text :=
  if c = eAcute then ['e', acuteMark] else if c = noBreakSpace then [' '] else [c]

theorem composeAcute_cons {c : Char} (h : c ≠ 'e') (text : Text) :
    composeAcute (c :: text) = c :: composeAcute text := by
  cases text with
  | nil => rfl
  | cons d text => rw [composeAcute, if_neg fun hand => h hand.1]

/-- The composition does not act across other characters. -/
theorem composeAcute_append {c : Char} (he : c ≠ 'e') (hmark : c ≠ acuteMark) (a b : Text) :
    composeAcute (a ++ c :: b) = composeAcute a ++ c :: composeAcute b := by
  fun_induction composeAcute a with
  | case1 => exact composeAcute_cons he b
  | case2 d =>
      rw [List.singleton_append, composeAcute, if_neg fun hand => hmark hand.2,
        composeAcute_cons he]
      rfl
  | case3 d e a h ih => rw [List.cons_append, List.cons_append, composeAcute, if_pos h, ih,
      List.cons_append]
  | case4 d e a h ih => rw [List.cons_append, List.cons_append, composeAcute, if_neg h,
      ← List.cons_append, ih, List.cons_append]

/-- What is composed comes apart again. -/
theorem apart_composeAcute {a : Text} (h : ∀ c ∈ a, decomposeAcute c = [c]) :
    (composeAcute a).flatMap decomposeAcute = a := by
  fun_induction composeAcute a with
  | case1 => rfl
  | case2 d => rw [List.flatMap_singleton, h d List.mem_cons_self]
  | case3 d e a hand ih =>
      obtain ⟨rfl, rfl⟩ := hand
      rw [List.flatMap_cons, ih fun c hc => h c (List.mem_cons_of_mem _ (List.mem_cons_of_mem _ hc)),
        decomposeAcute, if_pos rfl]
      rfl
  | case4 d e a hand ih =>
      rw [List.flatMap_cons, ih fun c hc => h c (List.mem_cons_of_mem _ hc), h d List.mem_cons_self]
      rfl

theorem mem_composeAcute {a : Text} {c : Char} (h : c ∈ composeAcute a) : c ∈ a ∨ c = eAcute := by
  fun_induction composeAcute a with
  | case1 => exact .inl h
  | case2 d => exact .inl h
  | case3 d e a hand ih =>
      rcases List.mem_cons.1 h with rfl | h
      · exact .inr rfl
      · exact (ih h).imp_left fun h => List.mem_cons_of_mem _ (List.mem_cons_of_mem _ h)
  | case4 d e a hand ih =>
      rcases List.mem_cons.1 h with rfl | h
      · exact .inl List.mem_cons_self
      · exact (ih h).imp_left (List.mem_cons_of_mem _)

theorem decomposeAcute_invisible {c : Char} (h : isInvisible c = true ∨ c = ' ' ∨ c = '\t') :
    decomposeAcute c = [c] ∧ c ≠ 'e' ∧ c ≠ acuteMark := by
  have hother : ∀ d : Char, (isInvisible d = false ∧ d ≠ ' ' ∧ d ≠ '\t') → c ≠ d := by
    rintro d ⟨hin, hspace, htab⟩ rfl
    rcases h with h | h | h
    · rw [hin] at h
      cases h
    · exact hspace h
    · exact htab h
  refine ⟨?_, hother 'e' (by decide), hother acuteMark (by decide)⟩
  rw [decomposeAcute, if_neg (hother eAcute (by decide)), if_neg (hother noBreakSpace (by decide))]

/-- Every character a character comes apart into is either itself or one of three others. -/
theorem mem_decomposeAcute {c d : Char} (h : d ∈ decomposeAcute c) :
    decomposeAcute d = [d] ∧ (d = c ∨ d = 'e' ∨ d = acuteMark ∨ d = ' ') := by
  rw [decomposeAcute] at h
  split at h
  · rcases List.mem_cons.1 h with rfl | h
    · exact ⟨by decide, .inr (.inl rfl)⟩
    · rw [List.mem_singleton.1 h]
      exact ⟨by decide, .inr (.inr (.inl rfl))⟩
  · next hletter =>
      split at h
      · rw [List.mem_singleton.1 h]
        exact ⟨by decide, .inr (.inr (.inr rfl))⟩
      · next hspace =>
          rw [List.mem_singleton.1 h]
          exact ⟨by rw [decomposeAcute, if_neg hletter, if_neg hspace], .inl rfl⟩

/-- NFKC of texts whose only letter with a mark is the e with an acute accent. -/
def acute : Nfkc where
  decomposition := decomposeAcute
  canonical := composeAcute
  Inert c := isInvisible c = true ∨ c = ' ' ∨ c = '\t'
  decomposed _ _ h := (mem_decomposeAcute h).1
  decomposition_ne_nil c := by
    rw [decomposeAcute]
    split
    · exact List.cons_ne_nil _ _
    · split <;> exact List.cons_ne_nil _ _
  decomposition_inert _ h := (decomposeAcute_invisible h).1
  canonical_inert h := composeAcute_append (decomposeAcute_invisible h).2.1
    (decomposeAcute_invisible h).2.2
  canonical_perm h := by rw [apart_composeAcute h]
  canonical_new h := (mem_composeAcute h).imp_right fun h => by
    rw [h]
    decide
  canonical_concat ha hb := by
    rw [List.flatMap_append, apart_composeAcute ha, apart_composeAcute hb]
  inert_iff _ := Iff.rfl
  noBreak := by decide
  invisible _ _ h hin := by
    rcases (mem_decomposeAcute h).2 with heq | rfl | rfl | rfl
    · exact heq
    · cases hin
    · cases hin
    · cases hin

/-- A zero-width space between an e and its accent keeps the two apart, until the text is normalised
a second time. -/
theorem invisible_keeps_apart :
    normalize (acute.engine (fun _ _ => none) id) ['e', acuteMark] = [eAcute] ∧
      normalize (acute.engine (fun _ _ => none) id) ['e', zeroWidthSpace, acuteMark] =
        ['e', acuteMark] ∧
      normalize (acute.engine (fun _ _ => none) id)
          (normalize (acute.engine (fun _ _ => none) id) ['e', zeroWidthSpace, acuteMark]) =
        [eAcute] ∧
      isInvisible zeroWidthSpace = true ∧ ['e', acuteMark] ≠ [eAcute] :=
  ⟨rfl, rfl, rfl, rfl, by decide⟩

end AgentPay.Properties
