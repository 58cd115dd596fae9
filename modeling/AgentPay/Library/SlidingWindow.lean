import Mathlib

/-!
# Sliding windows

A log of instants that counts its recent entries and drops the old ones as it grows. A log that has
dropped entries answers for its whole history from some instant on, since a dropped entry is not
recent again. A history that grows only while few of its entries are recent is paced: no closed
interval of the width of the window holds more entries than the limit.
-/

set_option autoImplicit false

namespace AgentPay.Library

/-- The entries no older than the width at an instant. -/
def recent (width x : ℕ) (log : List ℕ) : List ℕ := log.filter fun t => decide (x ≤ t + width)

section Recent

variable {width x y : ℕ}

theorem recent_append (log log' : List ℕ) :
    recent width x (log ++ log') = recent width x log ++ recent width x log' :=
  List.filter_append ..

/-- What has been dropped is not recent later. -/
theorem recent_recent (h : x ≤ y) (log : List ℕ) :
    recent width y (recent width x log) = recent width y log := by
  rw [recent, recent, recent, List.filter_filter]
  refine List.filter_congr fun t _ => ?_
  by_cases hy : y ≤ t + width
  · have hx : x ≤ t + width := h.trans hy
    simp [hx, hy]
  · simp [hy]

end Recent

/-- From an instant on the kept entries have the recent entries of the history. -/
def AnswersFor (width now : ℕ) (kept history : List ℕ) : Prop :=
  ∀ x, now ≤ x → recent width x kept = recent width x history

namespace AnswersFor

variable {width now now' : ℕ} {kept history : List ℕ}

theorem later (h : AnswersFor width now kept history) (hle : now ≤ now') :
    AnswersFor width now' kept history :=
  fun x hx => h x (hle.trans hx)

/-- An insertion that drops what is not recent. -/
theorem insert (h : AnswersFor width now kept history) (hle : now ≤ now') :
    AnswersFor width now' (recent width now' kept ++ [now']) (history ++ [now']) := by
  intro x hx
  rw [recent_append, recent_append, recent_recent hx, h x (hle.trans hx)]

end AnswersFor

/-- A history whose every entry came when fewer than the limit were recent, seen from an instant not
after it. -/
inductive Paced (width limit : ℕ) : List ℕ → Prop
  | nil : Paced width limit []
  | admitted {history : List ℕ} (x t : ℕ) (h : Paced width limit history) (hle : x ≤ t)
      (hroom : (recent width x history).length < limit) : Paced width limit (history ++ [t])

/-- The entries in the closed interval of the width that begins at an instant. -/
def within (width start : ℕ) (log : List ℕ) : List ℕ :=
  log.filter fun t => decide (start ≤ t) && decide (t ≤ start + width)

/-- The entries of an interval are recent as long as the interval has not ended. -/
theorem within_sublist_recent {width start x : ℕ} (hx : x ≤ start + width) (log : List ℕ) :
    (within width start log).Sublist (recent width x log) := by
  refine List.monotone_filter_right log fun t ht => ?_
  rw [Bool.and_eq_true, decide_eq_true_eq] at ht
  exact decide_eq_true (by omega)

/-- A paced history has at most the limit in every closed interval of the width. -/
theorem Paced.within_le {width limit : ℕ} {history : List ℕ} (h : Paced width limit history)
    (start : ℕ) : (within width start history).length ≤ limit := by
  induction h with
  | nil => exact Nat.zero_le _
  | @admitted history x t h hle hroom ih =>
      rw [within, List.filter_append, List.length_append]
      by_cases ht : start ≤ t ∧ t ≤ start + width
      · -- the entry ends the interval, and the others in it were recent when it was let in
        have hothers : (within width start history).length ≤ (recent width x history).length :=
          (within_sublist_recent (hle.trans ht.2) history).length_le
        have hone : ([t].filter fun t => decide (start ≤ t) && decide (t ≤ start + width)).length ≤
            1 := List.length_filter_le _ _
        rw [within] at hothers
        omega
      · have hnone : ([t].filter fun t => decide (start ≤ t) && decide (t ≤ start + width)) = [] := by
          rw [List.filter_cons_of_neg, List.filter_nil]
          rw [Bool.and_eq_true, decide_eq_true_eq, decide_eq_true_eq]
          exact ht
        rw [hnone, List.length_nil, Nat.add_zero]
        exact ih

end AgentPay.Library
