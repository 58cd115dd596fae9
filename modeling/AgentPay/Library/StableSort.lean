import Mathlib

/-!
# Sorting by a key

A stable insertion sort by a key keeps the members of each key in their order, so two lists have one
sorted form exactly when they have the same members in the same order under every key
(`sortBy_eq_iff`).
-/

set_option autoImplicit false

namespace AgentPay.Library

universe u v

variable {α : Type u} {κ : Type v} [LinearOrder κ] (key : α → κ)

/-- Insertion before the members with the same or a larger key. -/
def insertBy (a : α) : List α → List α
  | [] => [a]
  | b :: rest => if key b < key a then b :: insertBy a rest else a :: b :: rest

/-- The list in a stable order by the key. -/
def sortBy : List α → List α
  | [] => []
  | a :: rest => insertBy key a (sortBy rest)

variable {key}

theorem insertBy_perm (a : α) (l : List α) : (insertBy key a l).Perm (a :: l) := by
  induction l with
  | nil => exact List.Perm.refl _
  | cons b rest ih =>
      rw [insertBy]
      split
      · exact (ih.cons b).trans (List.Perm.swap a b rest)
      · exact List.Perm.refl _

theorem sortBy_perm (l : List α) : (sortBy key l).Perm l := by
  induction l with
  | nil => exact List.Perm.refl _
  | cons a rest ih => exact (insertBy_perm a _).trans (ih.cons a)

theorem insertBy_pairwise (a : α) {l : List α} (h : l.Pairwise fun x y => key x ≤ key y) :
    (insertBy key a l).Pairwise fun x y => key x ≤ key y := by
  induction l with
  | nil => exact List.pairwise_singleton _ _
  | cons b rest ih =>
      obtain ⟨hb, hrest⟩ := List.pairwise_cons.1 h
      rw [insertBy]
      split
      · rename_i hba
        refine List.pairwise_cons.2 ⟨?_, ih hrest⟩
        intro c hc
        rcases List.mem_cons.1 ((insertBy_perm a rest).mem_iff.1 hc) with rfl | hc
        · exact hba.le
        · exact hb c hc
      · rename_i hab
        refine List.pairwise_cons.2 ⟨?_, h⟩
        intro c hc
        rcases List.mem_cons.1 hc with rfl | hc
        · exact not_lt.1 hab
        · exact (not_lt.1 hab).trans (hb c hc)

theorem sortBy_pairwise (l : List α) : (sortBy key l).Pairwise fun x y => key x ≤ key y := by
  induction l with
  | nil => exact List.Pairwise.nil
  | cons a rest ih => exact insertBy_pairwise a ih

/-- The sort is stable: the members of a key keep their order. -/
theorem filter_sortBy (k : κ) (l : List α) :
    (sortBy key l).filter (fun a => decide (key a = k)) = l.filter fun a => decide (key a = k) := by
  have hinsert : ∀ (a : α) (l : List α), (insertBy key a l).filter (fun a => decide (key a = k)) =
      (a :: l).filter fun a => decide (key a = k) := by
    intro a l
    induction l with
    | nil => rfl
    | cons b rest ih =>
        rw [insertBy]
        split
        · rename_i hba
          rw [List.filter_cons, ih, List.filter_cons, List.filter_cons, List.filter_cons]
          -- the two members that change places have different keys
          by_cases ha : key a = k
          · have hb : key b ≠ k := by
              rw [← ha]
              exact hba.ne
            simp [ha, hb]
          · simp [ha]
        · rfl
  induction l with
  | nil => rfl
  | cons a rest ih =>
      rw [sortBy, hinsert]
      simp only [List.filter_cons, ih]

/-- Two ordered lists with the same members in the same order under every key are equal. -/
theorem eq_of_filter_eq {l m : List α} (hl : l.Pairwise fun x y => key x ≤ key y)
    (hm : m.Pairwise fun x y => key x ≤ key y)
    (h : ∀ k, l.filter (fun a => decide (key a = k)) = m.filter fun a => decide (key a = k)) :
    l = m := by
  have hmem : ∀ {l m : List α}, (∀ k, l.filter (fun a => decide (key a = k)) =
      m.filter fun a => decide (key a = k)) → ∀ a ∈ l, a ∈ m := by
    intro l m h a ha
    have hmem : a ∈ l.filter fun b => decide (key b = key a) :=
      List.mem_filter.2 ⟨ha, decide_eq_true rfl⟩
    rw [h] at hmem
    exact (List.mem_filter.1 hmem).1
  induction l generalizing m with
  | nil =>
      cases m with
      | nil => rfl
      | cons b m => exact absurd (hmem (fun k => (h k).symm) b List.mem_cons_self) List.not_mem_nil
  | cons a l ih =>
      cases m with
      | nil => exact absurd (hmem h a List.mem_cons_self) List.not_mem_nil
      | cons b m =>
          obtain ⟨hal, hl'⟩ := List.pairwise_cons.1 hl
          obtain ⟨hbm, hm'⟩ := List.pairwise_cons.1 hm
          have hba : key b ≤ key a := by
            rcases List.mem_cons.1 (hmem h a List.mem_cons_self) with rfl | hin
            · exact le_rfl
            · exact hbm a hin
          have hab : key a ≤ key b := by
            rcases List.mem_cons.1 (hmem (fun k => (h k).symm) b List.mem_cons_self) with rfl | hin
            · exact le_rfl
            · exact hal b hin
          have hkey : key a = key b := le_antisymm hab hba
          -- the heads are the first members of one key
          have hhead := h (key a)
          rw [List.filter_cons_of_pos (by simp), List.filter_cons_of_pos (by simp [hkey])] at hhead
          obtain rfl := (List.cons.inj hhead).1
          congr 1
          refine ih hl' hm' fun k => ?_
          have hk := h k
          rw [List.filter_cons, List.filter_cons] at hk
          split at hk
          · exact (List.cons.inj hk).2
          · exact hk

/-- Two lists have one sorted form exactly when they agree under every key. -/
theorem sortBy_eq_iff {l m : List α} : sortBy key l = sortBy key m ↔
    ∀ k, l.filter (fun a => decide (key a = k)) = m.filter fun a => decide (key a = k) := by
  constructor
  · intro h k
    rw [← filter_sortBy k l, h, filter_sortBy]
  · intro h
    refine eq_of_filter_eq (sortBy_pairwise l) (sortBy_pairwise m) fun k => ?_
    rw [filter_sortBy, filter_sortBy, h]

/-- Sorting commutes with a map that keeps the key. -/
theorem sortBy_map {β : Type u} {key' : β → κ} (f : α → β) (hf : ∀ a, key' (f a) = key a)
    (l : List α) : sortBy key' (l.map f) = (sortBy key l).map f := by
  have hinsert : ∀ (a : α) (l : List α),
      insertBy key' (f a) (l.map f) = (insertBy key a l).map f := by
    intro a l
    induction l with
    | nil => rfl
    | cons b rest ih =>
        rw [List.map_cons, insertBy, insertBy, hf, hf, ih]
        split
        · rfl
        · rfl
  induction l with
  | nil => rfl
  | cons a rest ih => rw [List.map_cons, sortBy, ih, hinsert, sortBy]

end AgentPay.Library
