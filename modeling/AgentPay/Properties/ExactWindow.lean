import AgentPay.Analyzer.Window

/-!
# The sliding window is exact

The loop of `_within_window` with its two indices, as the source has it. Its window is that of the
model of the analyzer (`turn_spec`), so `left` stays at or before `right`, no index leaves the marks,
and the answer is yes exactly when one position of each list can be chosen within the window
(`window_exact`).
-/

set_option autoImplicit false

namespace AgentPay.Properties

open AgentPay.Library AgentPay.Analyzer

/-! ## The loop with its indices -/

/-- The variables of the loop; the counters are Python integers. -/
structure Pointers where
  left : ℕ := 0
  counts : ℕ → ℤ := fun _ => 0
  distinct : ℤ := 0

/-- The inner loop: `while marks[right][0] - marks[left][0] > window`, with the position at `right`. An
index out of range raises. -/
def shrink (marks : List Mark) (window right left : ℕ) (counts : ℕ → ℤ) (distinct : ℤ) :
    Option Pointers :=
  if h : left < marks.length then
    let m := marks[left]
    if (window : ℤ) < (right : ℤ) - m.1 then
      let counts := Function.update counts m.2 (counts m.2 - 1)
      shrink marks window right (left + 1) counts (if counts m.2 = 0 then distinct - 1 else distinct)
    else some ⟨left, counts, distinct⟩
  else none
termination_by marks.length - left

/-- One turn of the outer loop, for the index `right`. -/
def turn (marks : List Mark) (window : ℕ) (p : Pointers) (right : ℕ) : Option Pointers :=
  marks[right]?.bind fun m =>
    shrink marks window m.1 p.left (Function.update p.counts m.2 (p.counts m.2 + 1))
      (if p.counts m.2 = 0 then p.distinct + 1 else p.distinct)

/-- The outer loop over the indices that are left. -/
def turns (marks : List Mark) (window facets : ℕ) : Pointers → List ℕ → Option Bool
  | _, [] => some false
  | p, right :: rights => (turn marks window p right).bind fun p =>
      if p.distinct = facets then some true else turns marks window facets p rights

/-- `_within_window` with its indices. -/
def withinWindowIndexed (hitPositions : List (List ℕ)) (window : ℕ) : Option Bool :=
  let marks := marksOf hitPositions
  turns marks window hitPositions.length {} (List.range marks.length)

/-! ## The window between the indices -/

/-- The indices and the counters are those of the window at the end of the marks read. -/
structure Between (read : List Mark) (s : WindowState) (p : Pointers) : Prop where
  left : p.left ≤ read.length
  marks : s.marks = read.drop p.left
  counts : ∀ f, p.counts f = s.counts f
  distinct : p.distinct = s.distinct

/-- The inner loop takes the marks out that are far from `right`, and stops at it at the latest. -/
theorem shrink_spec (window : ℕ) {before after : List Mark} {m : Mark} (n : ℕ) {left : ℕ}
    {counts : ℕ → ℕ} {counts' : ℕ → ℤ} {distinct : ℕ} (hleft : left + n = before.length)
    (htracks : Tracks ((before ++ [m]).drop left) counts distinct)
    (hcounts : ∀ f, counts' f = counts f) :
    ∃ p, shrink (before ++ m :: after) window m.1 left counts' distinct = some p ∧
      p.left ≤ before.length ∧
      Between (before ++ [m]) (leaveAll window m.1 ((before ++ [m]).drop left) counts distinct) p := by
  induction n generalizing left counts counts' distinct with
  | zero =>
      -- the last mark of the window is the one at `right`, which is not far from itself
      obtain rfl : left = before.length := hleft
      have hlt : before.length < (before ++ m :: after).length := by simp
      have hget : (before ++ m :: after)[before.length] = m := by simp
      have hdrop : (before ++ [m]).drop before.length = [m] := List.drop_left
      rw [hdrop, leaveAll, if_neg (by omega), shrink, dif_pos hlt]
      simp only [hget]
      rw [if_neg (by omega)]
      exact ⟨_, rfl, le_rfl, by simp, hdrop.symm, hcounts, rfl⟩
  | succ n ih =>
      have hlt : left < before.length := by omega
      have hlt' : left < (before ++ m :: after).length := by simp; omega
      have hget : (before ++ m :: after)[left] = before[left] := List.getElem_append_left hlt
      have hdrop : (before ++ [m]).drop left = before[left] :: (before ++ [m]).drop (left + 1) := by
        rw [List.drop_eq_getElem_cons (by simp; omega), List.getElem_append_left hlt]
      rw [hdrop] at htracks ⊢
      rw [leaveAll, shrink, dif_pos hlt']
      simp only [hget]
      by_cases hfar : window < m.1 - before[left].1
      · -- one facet fewer has a mark here, and one counter at most reaches zero
        have hmem : before[left].2 ∈ facetsOf (before[left] :: (before ++ [m]).drop (left + 1)) :=
          mem_facetsOf.2 ⟨before[left].1, List.mem_cons_self⟩
        have hone : 1 ≤ counts before[left].2 :=
          Nat.one_le_iff_ne_zero.2 fun h => (htracks.zero_iff _).1 h hmem
        have hsome : 1 ≤ distinct := by
          rw [htracks.distinct]
          exact Finset.card_pos.2 ⟨_, hmem⟩
        have hcounts' : ∀ f, Function.update counts' before[left].2 (counts' before[left].2 - 1) f =
            (Function.update counts before[left].2 (counts before[left].2 - 1) f : ℕ) := by
          intro f
          rw [Function.update_apply, Function.update_apply]
          split
          · rw [hcounts]
            omega
          · exact hcounts f
        have hzero : Function.update counts' before[left].2 (counts' before[left].2 - 1)
            before[left].2 = 0 ↔
              Function.update counts before[left].2 (counts before[left].2 - 1) before[left].2 = 0 := by
          rw [hcounts', Nat.cast_eq_zero]
        have hdistinct : (if Function.update counts' before[left].2 (counts' before[left].2 - 1)
            before[left].2 = 0 then (distinct : ℤ) - 1 else distinct) =
              ((if Function.update counts before[left].2 (counts before[left].2 - 1)
                before[left].2 = 0 then distinct - 1 else distinct : ℕ) : ℤ) := by
          simp only [hzero]
          split
          · rw [Nat.cast_sub hsome, Nat.cast_one]
          · rfl
        rw [if_pos hfar, if_pos (by omega), hdistinct]
        exact ih (by omega) htracks.leave hcounts'
      · rw [if_neg hfar, if_neg (by omega)]
        exact ⟨_, rfl, hlt.le, by simp; omega, hdrop.symm, hcounts, rfl⟩

/-- One turn of the loop keeps the indices and the counters those of the window, with `left` at or
before `right`. -/
theorem turn_spec {window last : ℕ} {before : List Mark} (after : List Mark) (m : Mark)
    {s : WindowState} {p : Pointers} (hread : Read window last before s) (hp : Between before s p) :
    ∃ p', turn (before ++ m :: after) window p before.length = some p' ∧
      p'.left ≤ before.length ∧ Between (before ++ [m]) (s.advance window m) p' := by
  have hmarks : (s.enter m).marks = (before ++ [m]).drop p.left := by
    rw [WindowState.enter, hp.marks, List.drop_append_of_le_length hp.left]
  have htracks := hread.tracks.enter m
  rw [hmarks] at htracks
  have hcounts : ∀ f, Function.update p.counts m.2 (p.counts m.2 + 1) f =
      ((s.enter m).counts f : ℕ) := by
    intro f
    change _ = ((Function.update s.counts m.2 (s.counts m.2 + 1) f : ℕ) : ℤ)
    rw [Function.update_apply, Function.update_apply]
    split
    · rw [hp.counts, Nat.cast_add, Nat.cast_one]
    · exact hp.counts f
  have hdistinct : (if p.counts m.2 = 0 then p.distinct + 1 else p.distinct) =
      ((s.enter m).distinct : ℕ) := by
    rw [WindowState.enter, hp.counts, hp.distinct]
    simp only [Nat.cast_eq_zero]
    split
    · rw [Nat.cast_add, Nat.cast_one]
    · rfl
  rw [turn, List.getElem?_append_right le_rfl, Nat.sub_self, List.getElem?_cons_zero,
    Option.bind_some, hdistinct, WindowState.advance, hmarks]
  exact shrink_spec window _ (Nat.add_sub_of_le hp.left) htracks hcounts

/-- The two loops give one answer. -/
theorem turns_eq {window facets last : ℕ} (before : List Mark) {after : List Mark} {s : WindowState}
    {p : Pointers}
    (hsorted : (before ++ after).Pairwise fun a b => a.1 ≤ b.1) (hread : Read window last before s)
    (hlast : ∀ m ∈ after, last ≤ m.1) (hp : Between before s p) :
    turns (before ++ after) window facets p (List.range' before.length after.length) =
      some (slide window facets s after) := by
  induction after generalizing before last s p with
  | nil => rfl
  | cons m after ih =>
      obtain ⟨p', hturn, -, hp'⟩ := turn_spec after m hread hp
      have hsplit : before ++ m :: after = before ++ [m] ++ after := List.append_cons ..
      rw [List.length_cons, List.range'_succ, turns, hturn, Option.bind_some, slide, hp'.distinct]
      rw [hsplit] at hsorted ⊢
      obtain ⟨hbefore, -, hbetween⟩ := List.pairwise_append.1 hsorted
      have hread' := hread.advance (hlast m List.mem_cons_self) hbefore
      have hmem : m ∈ before ++ [m] := List.mem_append_right _ (List.mem_singleton_self m)
      have hrest := ih _ hsorted hread' (fun m' hm' => hbetween m hmem m' hm') hp'
      rw [List.length_append, List.length_singleton] at hrest
      rw [hrest]
      simp only [Nat.cast_inj]
      split <;> rfl

/-- The variables after the turns for the first indices. -/
def pointersAfter (marks : List Mark) (window turned : ℕ) : Option Pointers :=
  (List.range turned).foldlM (turn marks window) {}

/-- Whatever was read, the indices and the counters are those of a window. -/
theorem pointersAfter_spec (window : ℕ) {before after : List Mark}
    (hsorted : (before ++ after).Pairwise fun a b => a.1 ≤ b.1) :
    ∃ p s last, pointersAfter (before ++ after) window before.length = some p ∧
      Between before s p ∧ Read window last before s ∧ ∀ m ∈ after, last ≤ m.1 := by
  induction before using List.reverseRecOn generalizing after with
  | nil =>
      exact ⟨{}, {}, 0, rfl, ⟨le_rfl, rfl, fun _ => rfl, rfl⟩, ⟨rfl, fun _ => rfl, rfl⟩,
        fun _ _ => Nat.zero_le _⟩
  | append_singleton before m ih =>
      obtain ⟨hbefore, -, hbetween⟩ := List.pairwise_append.1 hsorted
      rw [← List.append_cons] at hsorted ⊢
      obtain ⟨p, s, last, hp, hwindow, hread, hlast⟩ := ih hsorted
      obtain ⟨p', hturn, -, hp'⟩ := turn_spec after m hread hwindow
      refine ⟨p', s.advance window m, m.1, ?_, hp', hread.advance (hlast m List.mem_cons_self) hbefore,
        fun m' hm' => hbetween m (List.mem_append_right _ (List.mem_singleton_self m)) m' hm'⟩
      rw [pointersAfter, List.length_append, List.length_singleton, List.range_succ,
        List.foldlM_append, ← pointersAfter, hp]
      change (turn _ window p before.length >>= fun p => pure p) = some p'
      rw [hturn]
      rfl

/-- After the turn for an index, `left` is at or before it. -/
theorem left_le_right (hits : List (List ℕ)) (window : ℕ) {right : ℕ}
    (hright : right < (marksOf hits).length) :
    ∃ p, pointersAfter (marksOf hits) window (right + 1) = some p ∧ p.left ≤ right := by
  have hsplit : (marksOf hits).take right ++ (marksOf hits)[right] ::
      (marksOf hits).drop (right + 1) = marksOf hits := by
    rw [← List.drop_eq_getElem_cons hright, List.take_append_drop]
  have hlength : ((marksOf hits).take right).length = right :=
    List.length_take_of_le hright.le
  have hsorted := marksOf_sorted hits
  rw [← hsplit] at hsorted
  obtain ⟨p, s, last, hp, hwindow, hread, -⟩ := pointersAfter_spec window hsorted
  obtain ⟨p', hturn, hleft, -⟩ := turn_spec ((marksOf hits).drop (right + 1))
    (marksOf hits)[right] hread hwindow
  rw [hsplit, hlength] at hp hturn
  refine ⟨p', ?_, hlength ▸ hleft⟩
  rw [pointersAfter, List.range_succ, List.foldlM_append, ← pointersAfter, hp]
  change (turn _ window p right >>= fun p => pure p) = some p'
  rw [hturn]
  rfl

/-! ## One position of each list -/

/-- One position of each list, any two of them at most `window` apart. -/
def Chosen (hits : List (List ℕ)) (window : ℕ) (positions : List ℕ) : Prop :=
  List.Forall₂ (· ∈ ·) positions hits ∧ ∀ p ∈ positions, ∀ q ∈ positions, p ≤ q + window

variable {hits : List (List ℕ)} {window : ℕ}

/-- A choice of one position with a property from each list. -/
theorem exists_choice {near : ℕ → Prop} (h : ∀ hit ∈ hits, ∃ p ∈ hit, near p) :
    ∃ positions : List ℕ, List.Forall₂ (· ∈ ·) positions hits ∧ ∀ p ∈ positions, near p := by
  induction hits with
  | nil => exact ⟨[], .nil, fun p hp => absurd hp List.not_mem_nil⟩
  | cons hit hits ih =>
      obtain ⟨p, hp, hnear⟩ := h hit List.mem_cons_self
      obtain ⟨positions, hmem, hrest⟩ := ih fun hit' hhit' => h hit' (List.mem_cons_of_mem _ hhit')
      exact ⟨p :: positions, .cons hp hmem, List.forall_mem_cons.2 ⟨hnear, hrest⟩⟩

/-- A choice takes a position from every list, and from no other. -/
theorem mem_choice {positions : List ℕ} (h : List.Forall₂ (· ∈ ·) positions hits) :
    (∀ p ∈ positions, ∃ hit ∈ hits, p ∈ hit) ∧ ∀ hit ∈ hits, ∃ p ∈ positions, p ∈ hit := by
  induction h with
  | nil =>
      exact ⟨fun p hp => absurd hp List.not_mem_nil, fun hit hhit => absurd hhit List.not_mem_nil⟩
  | @cons p hit positions hits hp _ ih =>
      constructor
      · intro q hq
        rcases List.mem_cons.1 hq with rfl | hq
        · exact ⟨hit, List.mem_cons_self, hp⟩
        · obtain ⟨hit', hhit', hin⟩ := ih.1 q hq
          exact ⟨hit', List.mem_cons_of_mem _ hhit', hin⟩
      · intro hit' hhit'
        rcases List.mem_cons.1 hhit' with rfl | hhit'
        · exact ⟨p, List.mem_cons_self, hp⟩
        · obtain ⟨q, hq, hin⟩ := ih.2 hit' hhit'
          exact ⟨q, List.mem_cons_of_mem _ hq, hin⟩

theorem exists_chosen_of_fits (h : Fits hits window) :
    ∃ positions, Chosen hits window positions := by
  obtain ⟨right, -, hall⟩ := h
  obtain ⟨positions, hmem, hnear⟩ := exists_choice hall
  refine ⟨positions, hmem, fun p hp q hq => ?_⟩
  exact (hnear p hp).1.trans (hnear q hq).2

theorem fits_of_chosen (hne : hits ≠ []) {positions : List ℕ} (h : Chosen hits window positions) :
    Fits hits window := by
  obtain ⟨hmem, hnear⟩ := h
  have hsome : positions.toFinset.Nonempty := by
    rw [List.toFinset_nonempty_iff]
    rintro rfl
    exact hne (List.forall₂_nil_left_iff.1 hmem)
  obtain ⟨right, hright, hlargest⟩ := positions.toFinset.exists_max_image id hsome
  rw [List.mem_toFinset] at hright
  obtain ⟨hof, hto⟩ := mem_choice hmem
  refine ⟨right, hof right hright, fun hit hhit => ?_⟩
  obtain ⟨p, hp, hin⟩ := hto hit hhit
  exact ⟨p, hin, hlargest p (List.mem_toFinset.2 hp), hnear right hright p hp⟩

/-- The sliding window is exact: for all lists of positions, one at least, and every window, the loop
answers yes exactly when one position of each list can be chosen such that any two of them are at
most `window` apart; no index leaves the marks, and the inner loop never moves `left` beyond
`right`. -/
theorem window_exact (hits : List (List ℕ)) (hne : hits ≠ []) (window : ℕ) :
    (withinWindowIndexed hits window = some true ↔ ∃ positions, Chosen hits window positions) ∧
      (withinWindowIndexed hits window = some false ↔ ¬ ∃ positions, Chosen hits window positions) ∧
      ∀ right < (marksOf hits).length, ∃ p,
        pointersAfter (marksOf hits) window (right + 1) = some p ∧ p.left ≤ right := by
  have hloop : withinWindowIndexed hits window = some (withinWindow hits window) := by
    rw [withinWindowIndexed, List.range_eq_range', withinWindow]
    exact turns_eq [] (marksOf_sorted hits) ⟨rfl, fun _ => rfl, rfl⟩
      (fun _ _ => Nat.zero_le _) ⟨le_rfl, rfl, fun _ => rfl, rfl⟩
  have hchosen : (∃ positions, Chosen hits window positions) ↔ withinWindow hits window = true := by
    rw [withinWindow_iff]
    constructor
    · rintro ⟨_, h⟩
      exact fits_of_chosen hne h
    · exact exists_chosen_of_fits
  rw [hloop, hchosen, Option.some_inj, Option.some_inj, Bool.not_eq_true]
  exact ⟨Iff.rfl, Iff.rfl, fun right => left_le_right hits window⟩

/-- Three lists with a common window. -/
theorem window_exact_three : Chosen [[3, 40], [9], [9, 25]] 6 [3, 9, 9] ∧
    withinWindowIndexed [[3, 40], [9], [9, 25]] 6 = some true := by
  have hchosen : Chosen [[3, 40], [9], [9, 25]] 6 [3, 9, 9] := by
    refine ⟨by simp, by decide⟩
  exact ⟨hchosen, (window_exact _ (by decide) 6).1.2 ⟨_, hchosen⟩⟩

end AgentPay.Properties
