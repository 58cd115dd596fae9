import AgentPay.Analyzer.Similarity

/-!
# The sliding window

The loop over the marks keeps those that are at most `window` before the last one, with a count for
each facet. It answers yes exactly when every facet has a position in one window
(`withinWindow_iff`).
-/

set_option autoImplicit false

namespace AgentPay.Analyzer

open AgentPay.Library

/-- The marks at most `window` before a position. -/
def near (window right : ℕ) (m : Mark) : Bool := decide (right ≤ m.1 + window)

/-- The facets of the marks. -/
def facetsOf (marks : List Mark) : Finset ℕ := (marks.map Prod.snd).toFinset

theorem mem_facetsOf {marks : List Mark} {f : ℕ} : f ∈ facetsOf marks ↔ ∃ p, (p, f) ∈ marks := by
  rw [facetsOf, List.mem_toFinset, List.mem_map]
  constructor
  · rintro ⟨⟨p, f'⟩, hm, rfl⟩
    exact ⟨p, hm⟩
  · rintro ⟨p, hm⟩
    exact ⟨(p, f), hm, rfl⟩

/-- The counters are those of the marks. -/
structure Tracks (marks : List Mark) (counts : ℕ → ℕ) (distinct : ℕ) : Prop where
  counts : ∀ f, counts f = (marks.map Prod.snd).count f
  distinct : distinct = (facetsOf marks).card

namespace Tracks

variable {marks : List Mark} {counts : ℕ → ℕ} {distinct : ℕ} {m : Mark}

theorem zero_iff (h : Tracks marks counts distinct) (f : ℕ) : counts f = 0 ↔ f ∉ facetsOf marks := by
  rw [h.counts, List.count_eq_zero, facetsOf, List.mem_toFinset]

/-- A mark enters. -/
theorem enter {s : WindowState} (h : Tracks s.marks s.counts s.distinct) (m : Mark) :
    Tracks (s.enter m).marks (s.enter m).counts (s.enter m).distinct where
  counts f := by
    have hcounts : (s.enter m).counts = Function.update s.counts m.2 (s.counts m.2 + 1) := rfl
    rw [hcounts, WindowState.enter, List.map_append, List.count_append, List.map_cons, List.map_nil]
    by_cases hf : f = m.2
    · rw [hf, Function.update_self, h.counts, List.count_singleton_self]
    · rw [Function.update_of_ne hf, h.counts, List.count_cons_of_ne (Ne.symm hf), List.count_nil,
        Nat.add_zero]
  distinct := by
    have hfacets : facetsOf (s.enter m).marks = insert m.2 (facetsOf s.marks) := by
      rw [facetsOf, WindowState.enter, List.map_append, List.toFinset_append, Finset.union_comm]
      rfl
    rw [hfacets, Finset.card_insert_eq_ite, WindowState.enter]
    by_cases hnew : s.counts m.2 = 0
    · rw [if_pos hnew, if_neg ((h.zero_iff _).1 hnew), h.distinct]
    · rw [if_neg hnew, if_pos (not_not.1 (mt (h.zero_iff _).2 hnew)), h.distinct]

/-- The first mark leaves. -/
theorem leave (h : Tracks (m :: marks) counts distinct) :
    Tracks marks (Function.update counts m.2 (counts m.2 - 1))
      (if Function.update counts m.2 (counts m.2 - 1) m.2 = 0 then distinct - 1 else distinct) := by
  have hcounts : ∀ f, Function.update counts m.2 (counts m.2 - 1) f =
      (marks.map Prod.snd).count f := by
    intro f
    by_cases hf : f = m.2
    · rw [hf, Function.update_self, h.counts, List.map_cons, List.count_cons_self,
        Nat.add_sub_cancel]
    · rw [Function.update_of_ne hf, h.counts, List.map_cons, List.count_cons_of_ne (Ne.symm hf)]
  refine ⟨hcounts, ?_⟩
  have hfacets : facetsOf (m :: marks) = insert m.2 (facetsOf marks) := by
    rw [facetsOf, List.map_cons, List.toFinset_cons, facetsOf]
  rw [hcounts, h.distinct, hfacets, Finset.card_insert_eq_ite]
  by_cases hlast : (marks.map Prod.snd).count m.2 = 0
  · have hmem : m.2 ∉ facetsOf marks := by
      rwa [facetsOf, List.mem_toFinset, ← List.count_eq_zero]
    rw [if_pos hlast, if_neg hmem, Nat.add_sub_cancel]
  · have hmem : m.2 ∈ facetsOf marks := by
      rwa [facetsOf, List.mem_toFinset, ← not_not (a := m.2 ∈ _), ← List.count_eq_zero]
    rw [if_neg hlast, if_pos hmem]

end Tracks

/-- The inner loop keeps the marks near the last one. -/
theorem leaveAll_spec (window right : ℕ) {marks : List Mark} {counts : ℕ → ℕ} {distinct : ℕ}
    (hsorted : marks.Pairwise fun a b => a.1 ≤ b.1) (h : Tracks marks counts distinct) :
    (leaveAll window right marks counts distinct).marks = marks.filter (near window right) ∧
      Tracks (leaveAll window right marks counts distinct).marks
        (leaveAll window right marks counts distinct).counts
        (leaveAll window right marks counts distinct).distinct := by
  induction marks generalizing counts distinct with
  | nil => exact ⟨rfl, h⟩
  | cons m marks ih =>
      obtain ⟨hhead, htail⟩ := List.pairwise_cons.1 hsorted
      rw [leaveAll]
      by_cases hfar : window < right - m.1
      · simp only [if_pos hfar]
        have hnear : ¬ near window right m = true := by
          rw [near, decide_eq_true_eq]
          omega
        rw [List.filter_cons_of_neg hnear]
        exact ih htail h.leave
      · -- the first mark is near, and so are all later ones
        rw [if_neg hfar]
        refine ⟨(List.filter_eq_self.2 ?_).symm, h⟩
        refine List.forall_mem_cons.2 ⟨?_, fun m' hm' => ?_⟩
        · rw [near, decide_eq_true_eq]
          omega
        · have hle := hhead m' hm'
          rw [near, decide_eq_true_eq]
          omega

/-- The state after the marks before `last`, all of them read. -/
structure Read (window last : ℕ) (before : List Mark) (s : WindowState) : Prop where
  marks : s.marks = before.filter (near window last)
  tracks : Tracks s.marks s.counts s.distinct

theorem Read.advance {window last : ℕ} {before : List Mark} {s : WindowState} {m : Mark}
    (h : Read window last before s) (hlast : last ≤ m.1)
    (hsorted : (before ++ [m]).Pairwise fun a b => a.1 ≤ b.1) :
    Read window m.1 (before ++ [m]) (s.advance window m) := by
  have hmarks : (s.enter m).marks = before.filter (near window last) ++ [m] := by
    rw [WindowState.enter, h.marks]
  have hsub : ((s.enter m).marks).Pairwise fun a b => a.1 ≤ b.1 := by
    rw [hmarks]
    exact hsorted.sublist (List.filter_sublist.append_right [m])
  obtain ⟨hleft, htracks⟩ := leaveAll_spec window m.1 hsub (h.tracks.enter m)
  refine ⟨?_, htracks⟩
  rw [WindowState.advance, hleft, hmarks, List.filter_append, List.filter_append,
    List.filter_filter]
  -- what is near the new mark was near the one before it
  congr 1
  refine List.filter_congr fun m' _ => ?_
  rw [near, near, Bool.and_eq_left_iff_imp, decide_eq_true_eq, decide_eq_true_eq]
  exact fun hnear => hlast.trans hnear

/-- The loop answers yes exactly when it comes to a mark whose window has all the facets. -/
theorem slide_iff {window last facets : ℕ} {before marks : List Mark} {s : WindowState}
    (h : Read window last before s) (hlast : ∀ m ∈ marks, last ≤ m.1)
    (hsorted : (before ++ marks).Pairwise fun a b => a.1 ≤ b.1) :
    slide window facets s marks = true ↔ ∃ read m rest, marks = read ++ m :: rest ∧
      (facetsOf ((before ++ read ++ [m]).filter (near window m.1))).card = facets := by
  induction marks generalizing last before s with
  | nil =>
      rw [slide]
      refine ⟨fun h => absurd h Bool.false_ne_true, ?_⟩
      rintro ⟨read, m, rest, hsplit, -⟩
      exact absurd hsplit.symm (List.append_ne_nil_of_right_ne_nil _ (List.cons_ne_nil _ _))
  | cons m marks ih =>
      have hsplit : before ++ m :: marks = before ++ [m] ++ marks := (List.append_cons ..)
      rw [hsplit] at hsorted
      obtain ⟨hbefore, hmarks, hbetween⟩ := List.pairwise_append.1 hsorted
      have hread := h.advance (hlast m List.mem_cons_self) hbefore
      have hmem : m ∈ before ++ [m] := List.mem_append.2 (.inr (List.mem_singleton.2 rfl))
      have hstep := ih hread (fun m' hm' => hbetween m hmem m' hm') hsorted
      have hcard : (s.advance window m).distinct =
          (facetsOf ((before ++ [m]).filter (near window m.1))).card := by
        rw [hread.tracks.distinct, hread.marks]
      rw [slide]
      constructor
      · intro hyes
        split at hyes
        · next hfound =>
            exact ⟨[], m, marks, rfl, by rw [List.append_nil, ← hcard, hfound]⟩
        · obtain ⟨read, m', rest, rfl, hfacets⟩ := hstep.1 hyes
          exact ⟨m :: read, m', rest, rfl, by rwa [List.append_cons before m read]⟩
      · rintro ⟨read, m', rest, hmarks', hfacets⟩
        split
        · rfl
        · next hnot =>
            refine hstep.2 ?_
            cases read with
            | nil =>
                obtain ⟨rfl, rfl⟩ := List.cons.inj hmarks'
                rw [List.append_nil, ← hcard] at hfacets
                exact absurd hfacets hnot
            | cons m₀ read =>
                obtain ⟨rfl, rfl⟩ := List.cons.inj hmarks'
                exact ⟨read, m', rest, rfl, by rwa [← List.append_cons before m read]⟩

/-! ## The marks of the facets -/

variable {hits : List (List ℕ)} {window : ℕ}

theorem mem_marksOf {p f : ℕ} : (p, f) ∈ marksOf hits ↔ ∃ hit, hits[f]? = some hit ∧ p ∈ hit := by
  rw [marksOf, (sortBy_perm _).mem_iff, List.mem_flatMap]
  constructor
  · rintro ⟨⟨hit, f'⟩, hhit, hp⟩
    obtain ⟨p', hp', heq⟩ := List.mem_map.1 hp
    obtain ⟨rfl, rfl⟩ := Prod.mk.inj heq
    exact ⟨hit, List.mem_zipIdx_iff_getElem?.1 hhit, hp'⟩
  · rintro ⟨hit, hhit, hp⟩
    exact ⟨(hit, f), List.mem_zipIdx_iff_getElem?.2 hhit, List.mem_map.2 ⟨p, hp, rfl⟩⟩

theorem marksOf_sorted (hits : List (List ℕ)) :
    (marksOf hits).Pairwise fun a b => a.1 ≤ b.1 := by
  refine (sortBy_pairwise _).imp fun {a b} h => ?_
  rcases Prod.Lex.le_iff.1 h with hlt | ⟨heq, -⟩
  · exact hlt.le
  · exact heq.le

/-- Every facet has a position in the window that ends at one of the positions. -/
def Fits (hits : List (List ℕ)) (window : ℕ) : Prop :=
  ∃ right, (∃ hit ∈ hits, right ∈ hit) ∧ ∀ hit ∈ hits, ∃ p ∈ hit, p ≤ right ∧ right ≤ p + window

/-- A list splits at the last of its members with a property. -/
theorem exists_last {α : Type} {p : α → Prop} {l : List α} (h : ∃ a ∈ l, p a) :
    ∃ l₁ a l₂, l = l₁ ++ a :: l₂ ∧ p a ∧ ∀ b ∈ l₂, ¬ p b := by
  induction l with
  | nil =>
      obtain ⟨a, ha, -⟩ := h
      exact absurd ha List.not_mem_nil
  | cons a l ih =>
      by_cases hl : ∃ b ∈ l, p b
      · obtain ⟨l₁, b, l₂, rfl, hb, hrest⟩ := ih hl
        exact ⟨a :: l₁, b, l₂, rfl, hb, hrest⟩
      · obtain ⟨b, hb, hp⟩ := h
        rcases List.mem_cons.1 hb with rfl | hb
        · exact ⟨[], b, l, rfl, hp, fun c hc hpc => hl ⟨c, hc, hpc⟩⟩
        · exact absurd ⟨b, hb, hp⟩ hl

theorem facetsOf_subset {marks : List Mark} (h : marks ⊆ marksOf hits) :
    facetsOf marks ⊆ Finset.range hits.length := by
  intro f hf
  obtain ⟨p, hp⟩ := mem_facetsOf.1 hf
  obtain ⟨hit, hhit, -⟩ := mem_marksOf.1 (h hp)
  exact Finset.mem_range.2 (List.getElem?_eq_some_iff.1 hhit).1

/-- The loop decides whether all facets fit one window. -/
theorem withinWindow_iff : withinWindow hits window = true ↔ Fits hits window := by
  have hread : Read window 0 [] {} := ⟨rfl, fun _ => rfl, rfl⟩
  have hslide : slide window hits.length {} (marksOf hits) = true ↔ _ :=
    slide_iff hread (fun _ _ => Nat.zero_le _) (marksOf_sorted hits)
  rw [withinWindow, hslide]
  constructor
  · rintro ⟨read, m, rest, hsplit, hcard⟩
    have hsub : ([] ++ read ++ [m]).filter (near window m.1) ⊆ marksOf hits := by
      intro m' hm'
      rw [hsplit, List.append_cons]
      exact List.mem_append_left _ (List.mem_of_mem_filter hm')
    have hall := Finset.eq_of_subset_of_card_le (facetsOf_subset hsub)
      (by rw [Finset.card_range, hcard])
    have hm : m ∈ marksOf hits := by
      rw [hsplit]
      exact List.mem_append_right _ List.mem_cons_self
    obtain ⟨hit, hhit, hp⟩ := mem_marksOf.1 hm
    refine ⟨m.1, ⟨hit, List.mem_of_getElem? hhit, hp⟩, fun hit' hhit' => ?_⟩
    -- the facet of this group has a mark in the window
    obtain ⟨f, hf⟩ := List.getElem?_of_mem hhit'
    have hf' : f ∈ facetsOf (([] ++ read ++ [m]).filter (near window m.1)) := by
      rw [hall]
      exact Finset.mem_range.2 (List.getElem?_eq_some_iff.1 hf).1
    obtain ⟨p, hpf⟩ := mem_facetsOf.1 hf'
    obtain ⟨hmem, hnear⟩ := List.mem_filter.1 hpf
    obtain ⟨hit'', hhit'', hp''⟩ := mem_marksOf.1 (hsub hpf)
    obtain rfl : hit'' = hit' := Option.some.inj (hhit''.symm.trans hf)
    refine ⟨p, hp'', ?_, of_decide_eq_true hnear⟩
    have hsorted := marksOf_sorted hits
    rw [hsplit] at hsorted
    rcases List.mem_append.1 hmem with hmem | hmem
    · exact (List.pairwise_append.1 hsorted).2.2 _ hmem m List.mem_cons_self
    · exact (congrArg Prod.fst (List.mem_singleton.1 hmem)).le
  · rintro ⟨right, ⟨hit, hhit, hright⟩, hall⟩
    obtain ⟨f, hf⟩ := List.getElem?_of_mem hhit
    have hmark : (right, f) ∈ marksOf hits := mem_marksOf.2 ⟨hit, hf, hright⟩
    -- the last mark at or before the end of the window is at its end
    obtain ⟨read, m, rest, hsplit, hm, hrest⟩ :=
      exists_last (p := fun m : Mark => m.1 ≤ right) ⟨_, hmark, le_rfl⟩
    have hsorted := marksOf_sorted hits
    have hbefore : ∀ m' ∈ marksOf hits, m'.1 ≤ right → m' ∈ [] ++ read ++ [m] := by
      intro m' hm' hle
      rw [hsplit, List.append_cons] at hm'
      rcases List.mem_append.1 hm' with hm' | hm'
      · exact hm'
      · exact absurd hle (hrest m' hm')
    have hend : right ≤ m.1 := by
      rw [hsplit] at hsorted
      rcases List.mem_append.1 (hbefore _ hmark le_rfl) with hin | hin
      · exact (List.pairwise_append.1 hsorted).2.2 _ hin m List.mem_cons_self
      · exact (congrArg Prod.fst (List.mem_singleton.1 hin)).le
    refine ⟨read, m, rest, hsplit, ?_⟩
    rw [← Finset.card_range hits.length]
    congr 1
    refine (facetsOf_subset fun m' hm' => ?_).antisymm fun f' hf' => ?_
    · rw [hsplit, List.append_cons]
      exact List.mem_append_left _ (List.mem_of_mem_filter hm')
    · obtain ⟨hit', hhit'⟩ : ∃ hit', hits[f']? = some hit' :=
        ⟨_, List.getElem?_eq_getElem (Finset.mem_range.1 hf')⟩
      obtain ⟨p, hp, hle, hnear⟩ := hall hit' (List.mem_of_getElem? hhit')
      refine mem_facetsOf.2 ⟨p, List.mem_filter.2 ⟨?_, decide_eq_true (hm.trans hnear)⟩⟩
      exact hbefore _ (mem_marksOf.2 ⟨hit', hhit', hp⟩) hle

end AgentPay.Analyzer
