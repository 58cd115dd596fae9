import AgentPay.Library.StableSort

/-!
# Last writes

Each event writes some of a family of registers, and a register holds what was written to it last.
When the events carry keys, and arrive in any order and any number of times, sorting what arrived by
the key restores the last writes exactly when, for each register, all writers with the largest key
write what the last one wrote (`restores_iff`).
-/

set_option autoImplicit false

namespace AgentPay.Library

variable {ε ι κ : Type} {V : ι → Type} [LinearOrder κ]

/-- What a list of events leaves in a register. -/
def lastWrite (writes : ε → (i : ι) → Option (V i)) : List ε → (i : ι) → Option (V i)
  | [], _ => none
  | e :: l, i => (lastWrite writes l i).or (writes e i)

/-- What arrived: the events in some order, some of them more than once. -/
def Redelivered (l l' : List ε) : Prop := ∃ again, (∀ e ∈ again, e ∈ l) ∧ l'.Perm (l ++ again)

/-- For each register, the writers with the largest key write what the last one wrote. -/
def LargestAgree (key : ε → κ) (writes : ε → (i : ι) → Option (V i)) (l : List ε) : Prop :=
  ∀ i, ∀ e ∈ l, (writes e i).isSome → (∀ f ∈ l, (writes f i).isSome → key f ≤ key e) →
    writes e i = lastWrite writes l i

section LastWrite

variable {writes : ε → (i : ι) → Option (V i)} {i : ι} {l l' : List ε}

theorem lastWrite_append (l l' : List ε) :
    lastWrite writes (l ++ l') i = (lastWrite writes l' i).or (lastWrite writes l i) := by
  induction l with
  | nil => exact (Option.or_none).symm
  | cons e l ih => rw [List.cons_append, lastWrite, ih, lastWrite, Option.or_assoc]

/-- A register that was not written is empty. -/
theorem lastWrite_eq_none : lastWrite writes l i = none ↔ ∀ e ∈ l, writes e i = none := by
  induction l with
  | nil => exact ⟨fun _ e he => absurd he List.not_mem_nil, fun _ => rfl⟩
  | cons e l ih => rw [lastWrite, Option.or_eq_none_iff, ih, List.forall_mem_cons, and_comm]

/-- What a register holds was written by an event. -/
theorem exists_writer {v : V i} (h : lastWrite writes l i = some v) :
    ∃ e ∈ l, writes e i = some v := by
  induction l with
  | nil => cases h
  | cons e l ih =>
      rw [lastWrite, Option.or_eq_some_iff] at h
      rcases h with h | ⟨-, h⟩
      · obtain ⟨f, hf, hv⟩ := ih h
        exact ⟨f, List.mem_cons_of_mem _ hf, hv⟩
      · exact ⟨e, List.mem_cons_self, h⟩

theorem Redelivered.refl (l : List ε) : Redelivered l l :=
  ⟨[], fun _ he => absurd he List.not_mem_nil, by rw [List.append_nil]⟩

theorem Redelivered.mem_iff (h : Redelivered l l') {e : ε} : e ∈ l' ↔ e ∈ l := by
  obtain ⟨again, hagain, hperm⟩ := h
  rw [hperm.mem_iff, List.mem_append]
  exact ⟨fun he => he.elim id (hagain e), .inl⟩

section Sorted

variable {key : ε → κ}

/-- In a sorted list the writers with the largest key decide. -/
theorem lastWrite_filter_largest (hsorted : l.Pairwise fun e f => key e ≤ key f) {k : κ}
    (hlargest : ∀ f ∈ l, (writes f i).isSome → key f ≤ k)
    (hwriter : ∃ e ∈ l, (writes e i).isSome ∧ key e = k) :
    lastWrite writes l i = lastWrite writes (l.filter fun f => decide (key f = k)) i := by
  induction l with
  | nil =>
      obtain ⟨e, he, -⟩ := hwriter
      exact absurd he List.not_mem_nil
  | cons a l ih =>
      obtain ⟨hhead, htail⟩ := List.pairwise_cons.1 hsorted
      obtain ⟨hfirst, hrest⟩ := List.forall_mem_cons.1 hlargest
      by_cases hlater : ∃ e ∈ l, (writes e i).isSome ∧ key e = k
      · -- a later writer decides on both sides
        have hih := ih htail hrest hlater
        obtain ⟨v, hv⟩ : ∃ v, lastWrite writes l i = some v := by
          obtain ⟨e, he, hwrites, -⟩ := hlater
          rw [← Option.isSome_iff_exists, Option.isSome_iff_ne_none]
          intro hnone
          rw [lastWrite_eq_none.1 hnone e he] at hwrites
          cases hwrites
        rw [hv] at hih
        rw [lastWrite, hv, Option.some_or, List.filter_cons]
        split
        · rw [lastWrite, ← hih, Option.some_or]
        · exact hih
      · -- the head is the only writer with the largest key, and the rest has no smaller one
        have hkey : key a = k := by
          obtain ⟨e, he, hwrites, hk⟩ := hwriter
          rcases List.mem_cons.1 he with rfl | he
          · exact hk
          · exact absurd ⟨e, he, hwrites, hk⟩ hlater
        have hnone : ∀ f ∈ l, writes f i = none := by
          intro f hf
          by_contra hne
          have hwrites := Option.isSome_iff_ne_none.2 hne
          exact hlater ⟨f, hf, hwrites, le_antisymm (hrest f hf hwrites) (hkey ▸ hhead f hf)⟩
        rw [lastWrite, lastWrite_eq_none.2 hnone, List.filter_cons, if_pos (decide_eq_true hkey),
          lastWrite, lastWrite_eq_none.2 fun f hf => hnone f (List.mem_of_mem_filter hf)]

/-- What a sorted list leaves in a register was written by an event with the largest key. -/
theorem exists_largest_writer (hsorted : l.Pairwise fun e f => key e ≤ key f) {v : V i}
    (h : lastWrite writes l i = some v) : ∃ e ∈ l, writes e i = some v ∧
      ∀ f ∈ l, (writes f i).isSome → key f ≤ key e := by
  induction l with
  | nil => cases h
  | cons a l ih =>
      obtain ⟨hhead, htail⟩ := List.pairwise_cons.1 hsorted
      rw [lastWrite, Option.or_eq_some_iff] at h
      rcases h with h | ⟨hnone, h⟩
      · obtain ⟨e, he, hv, hlargest⟩ := ih htail h
        refine ⟨e, List.mem_cons_of_mem _ he, hv, List.forall_mem_cons.2 ⟨fun _ => ?_, hlargest⟩⟩
        exact hhead e he
      · refine ⟨a, List.mem_cons_self, h, List.forall_mem_cons.2 ⟨fun _ => le_rfl, ?_⟩⟩
        intro f hf hwrites
        rw [lastWrite_eq_none.1 hnone f hf] at hwrites
        cases hwrites

/-- **Sorting restores the last writes of every delivery exactly when the largest agree.** -/
theorem restores_iff (l : List ε) :
    (∀ l', Redelivered l l' → ∀ i, lastWrite writes (sortBy key l') i = lastWrite writes l i) ↔
      LargestAgree key writes l := by
  constructor
  · intro h i e he hwrites hlargest
    -- the event is delivered once more, after all the others
    have hagain : Redelivered l (l ++ [e]) :=
      ⟨[e], fun f hf => by rwa [List.mem_singleton.1 hf], List.Perm.refl _⟩
    rw [← h _ hagain i, lastWrite_filter_largest (sortBy_pairwise _) (k := key e) ?_ ?_,
      filter_sortBy, List.filter_append, lastWrite_append]
    · obtain ⟨v, hv⟩ := Option.isSome_iff_exists.1 hwrites
      rw [List.filter_cons, if_pos (decide_eq_true rfl), lastWrite, hv]
      rfl
    · intro f hf hwrites
      exact hlargest f (hagain.mem_iff.1 ((sortBy_perm _).mem_iff.1 hf)) hwrites
    · exact ⟨e, (sortBy_perm _).mem_iff.2 (hagain.mem_iff.2 he), hwrites, rfl⟩
  · intro h l' hl' i
    have hmem : ∀ e, e ∈ sortBy key l' ↔ e ∈ l := fun e => (sortBy_perm l').mem_iff.trans hl'.mem_iff
    cases hsorted : lastWrite writes (sortBy key l') i with
    | none =>
        refine (lastWrite_eq_none.2 fun e he => ?_).symm
        exact lastWrite_eq_none.1 hsorted e ((hmem e).2 he)
    | some v =>
        obtain ⟨e, he, hv, hlargest⟩ := exists_largest_writer (sortBy_pairwise l') hsorted
        rw [← hv]
        exact h i e ((hmem e).1 he) (Option.isSome_iff_exists.2 ⟨v, hv⟩) fun f hf =>
          hlargest f ((hmem f).2 hf)

/-- Events in the order of their keys, without ties, are restored. -/
theorem largestAgree_of_increasing (h : l.Pairwise fun e f => key e < key f) :
    LargestAgree key writes l := by
  intro i e he hwrites hlargest
  have hkeys : (l.map key).Nodup := List.pairwise_map.2 (h.imp ne_of_lt)
  cases hlast : lastWrite writes l i with
  | none =>
      rw [lastWrite_eq_none.1 hlast e he] at hwrites
      cases hwrites
  | some v =>
      obtain ⟨f, hf, hv, hf'⟩ := exists_largest_writer (h.imp le_of_lt) hlast
      have hkey : key f = key e :=
        le_antisymm (hlargest f hf (Option.isSome_iff_exists.2 ⟨v, hv⟩)) (hf' e he hwrites)
      rw [← List.inj_on_of_nodup_map hkeys hf he hkey, hv]

end Sorted

end LastWrite

end AgentPay.Library
