import Mathlib

/-!
# Sums over the entries that meet a condition

`sumWhere f P l` adds `f` over the entries of a list that meet `P`. For a non-negative `f` it is
monotone in the condition (`sumWhere_mono`) and subadditive (`sumWhere_or_le`), and a condition that
picks the entry of one key adds that entry alone (`sumWhere_key`).
-/

set_option autoImplicit false

namespace AgentPay.Library

variable {α κ : Type}

/-- The sum of `f` over the entries that meet a condition. -/
def sumWhere (f : α → ℤ) (P : α → Bool) (l : List α) : ℤ := ((l.filter P).map f).sum

variable {f : α → ℤ} {P Q : α → Bool} {l : List α}

@[simp] theorem sumWhere_nil : sumWhere f P [] = 0 := rfl

theorem sumWhere_cons (a : α) :
    sumWhere f P (a :: l) = (if P a then f a else 0) + sumWhere f P l := by
  unfold sumWhere
  rw [List.filter_cons]
  by_cases h : P a = true
  · rw [if_pos h, if_pos h, List.map_cons, List.sum_cons]
  · rw [if_neg h, if_neg h, zero_add]

theorem sumWhere_nonneg (hf : ∀ a ∈ l, 0 ≤ f a) : 0 ≤ sumWhere f P l := by
  apply List.sum_nonneg
  intro x hx
  obtain ⟨a, ha, rfl⟩ := List.mem_map.1 hx
  exact hf a (List.mem_filter.1 ha).1

/-- A weaker condition adds more. -/
theorem sumWhere_mono (hf : ∀ a ∈ l, 0 ≤ f a) (h : ∀ a ∈ l, P a = true → Q a = true) :
    sumWhere f P l ≤ sumWhere f Q l := by
  induction l with
  | nil => exact le_refl _
  | cons a l ih =>
      have htail := ih (fun b hb => hf b (List.mem_cons_of_mem _ hb))
        fun b hb => h b (List.mem_cons_of_mem _ hb)
      have hhead : (if P a then f a else 0) ≤ if Q a then f a else 0 := by
        have ha := hf a List.mem_cons_self
        by_cases hp : P a = true
        · rw [if_pos hp, if_pos (h a List.mem_cons_self hp)]
        · rw [if_neg hp]
          split
          · exact ha
          · exact le_refl 0
      rw [sumWhere_cons, sumWhere_cons]
      exact add_le_add hhead htail

/-- What meets one of two conditions is counted under one of them. -/
theorem sumWhere_or_le (hf : ∀ a ∈ l, 0 ≤ f a) {S : α → Bool}
    (h : ∀ a ∈ l, S a = true → P a = true ∨ Q a = true) :
    sumWhere f S l ≤ sumWhere f P l + sumWhere f Q l := by
  induction l with
  | nil => exact le_refl _
  | cons a l ih =>
      have htail := ih (fun b hb => hf b (List.mem_cons_of_mem _ hb))
        fun b hb => h b (List.mem_cons_of_mem _ hb)
      have ha := hf a List.mem_cons_self
      have hhead : (if S a then f a else 0) ≤
          (if P a then f a else 0) + if Q a then f a else 0 := by
        by_cases hs : S a = true
        · rcases h a List.mem_cons_self hs with hp | hq
          · rw [if_pos hs, if_pos hp]
            split <;> omega
          · rw [if_pos hs, if_pos hq]
            split <;> omega
        · rw [if_neg hs]
          split <;> split <;> omega
      rw [sumWhere_cons, sumWhere_cons, sumWhere_cons]
      omega

/-- A change of the entries that keeps their amounts is a change of the condition. -/
theorem sumWhere_map (g : α → α) (hg : ∀ a, f (g a) = f a) :
    sumWhere f P (l.map g) = sumWhere f (fun a => P (g a)) l := by
  induction l with
  | nil => rfl
  | cons a l ih => rw [List.map_cons, sumWhere_cons, sumWhere_cons, ih, hg]

/-- When no two entries share a key, the entry of one key is the only one that counts. -/
theorem sumWhere_key [DecidableEq κ] (key : α → κ) (hnodup : (l.map key).Nodup) {a : α}
    (ha : a ∈ l) : sumWhere f (fun b => decide (key b = key a)) l = f a := by
  induction l with
  | nil => exact absurd ha List.not_mem_nil
  | cons b l ih =>
      rw [List.map_cons, List.nodup_cons] at hnodup
      rw [sumWhere_cons]
      rcases List.mem_cons.1 ha with rfl | ha
      · have hnone : sumWhere f (fun b => decide (key b = key a)) l = 0 := by
          unfold sumWhere
          rw [List.filter_eq_nil_iff.2]
          · rfl
          · intro b hb hkey
            exact hnodup.1 (of_decide_eq_true hkey ▸ List.mem_map_of_mem hb)
        rw [if_pos (decide_eq_true rfl), hnone, add_zero]
      · have hne : key b ≠ key a := by
          intro hkey
          exact hnodup.1 (hkey ▸ List.mem_map_of_mem ha)
        rw [if_neg (by simpa using hne), zero_add]
        exact ih hnodup.2 ha

end AgentPay.Library
