import Mathlib

/-!
# Occurrences of a word

A word does not occur across a letter it does not have, so its occurrences in a text are those in the
parts between such letters. A text that is ended by a letter and a word without it, and in which the
word does not occur, can be told from what follows.
-/

set_option autoImplicit false

namespace AgentPay.Library

variable {α : Type} {w text before after : List α} {c : α} {i : ℕ}

/-- The word occurs in the text at a position. -/
def OccursAt (w text : List α) (i : ℕ) : Prop :=
  ∃ before after, text = before ++ w ++ after ∧ before.length = i

theorem OccursAt.isInfix (h : OccursAt w text i) : w <:+: text := by
  obtain ⟨before, after, rfl, -⟩ := h
  exact List.infix_append before w after

theorem exists_occursAt (h : w <:+: text) : ∃ i, OccursAt w text i := by
  obtain ⟨before, after, rfl⟩ := h
  exact ⟨before.length, before, after, rfl, rfl⟩

theorem occursAt_middle (before w after : List α) :
    OccursAt w (before ++ w ++ after) before.length := ⟨before, after, rfl, rfl⟩

/-- A part of the word occurs where the word does. -/
theorem OccursAt.part {u v : List α} (h : OccursAt (u ++ w ++ v) text i) :
    OccursAt w text (i + u.length) := by
  obtain ⟨before, after, rfl, rfl⟩ := h
  refine ⟨before ++ u, v ++ after, ?_, List.length_append⟩
  simp only [List.append_assoc]

/-- The letter that stands after a part of the word. -/
theorem OccursAt.getElem? {u v : List α} (h : OccursAt (u ++ c :: v) text i) :
    text[i + u.length]? = some c := by
  obtain ⟨before, after, rfl, rfl⟩ := h
  rw [List.append_assoc, List.append_assoc, List.getElem?_append_right (Nat.le_add_right _ _),
    Nat.add_sub_cancel_left, List.getElem?_append_right le_rfl, Nat.sub_self]
  rfl

theorem occursAt_self (h : OccursAt w w i) : i = 0 := by
  obtain ⟨before, after, heq, rfl⟩ := h
  have hlength := congrArg List.length heq
  rw [List.length_append, List.length_append] at hlength
  omega

/-- A word does not occur across a letter it does not have. -/
theorem OccursAt.across (hc : c ∉ w) (h : OccursAt w (before ++ c :: after) i) :
    OccursAt w before i ∨ ∃ j, i = before.length + 1 + j ∧ OccursAt w after j := by
  obtain ⟨b, a, heq, rfl⟩ := h
  rcases List.append_eq_append_iff.1 heq with ⟨e, hb, ha⟩ | ⟨e, rfl, -⟩
  · cases e with
    | nil =>
        rw [List.append_nil] at hb
        exact .inl ⟨b, [], by rw [List.append_nil, hb], rfl⟩
    | cons x e =>
        obtain ⟨rfl, rfl⟩ := List.cons.inj ha
        -- the letter ends before the word begins, or it stands in the word
        rcases List.append_eq_append_iff.1 hb with ⟨f, -, hw⟩ | ⟨f, rfl, hf⟩
        · exact absurd (hw ▸ List.mem_append_right f List.mem_cons_self) hc
        · cases f with
          | nil => exact absurd ((List.nil_append w ▸ hf) ▸ List.mem_cons_self) hc
          | cons y f =>
              obtain ⟨rfl, rfl⟩ := List.cons.inj hf
              refine .inr ⟨f.length, ?_, f, a, rfl, rfl⟩
              rw [List.length_append, List.length_cons]
              omega
  · exact .inl ⟨b, e, rfl, rfl⟩

theorem infix_across (hc : c ∉ w) (h : w <:+: before ++ c :: after) :
    w <:+: before ∨ w <:+: after := by
  obtain ⟨i, hi⟩ := exists_occursAt h
  rcases hi.across hc with hbefore | ⟨j, -, hafter⟩
  · exact .inl hbefore.isInfix
  · exact .inr hafter.isInfix

/-- A word longer than the text does not occur in it. -/
theorem not_infix_of_length_lt (h : text.length < w.length) : ¬ w <:+: text :=
  fun hin => absurd hin.length_le (Nat.not_le.2 h)

/-- A text in which the word does not occur is told from what follows the word after a letter. -/
theorem split_before {text' rest rest' : List α} (hc : c ∉ w) (h : ¬ w <:+: text)
    (h' : ¬ w <:+: text') (heq : text ++ c :: (w ++ rest) = text' ++ c :: (w ++ rest')) :
    text = text' ∧ rest = rest' := by
  -- the longer text would hold the letter and the word after it
  have hlonger : ∀ {t t' r r' e : List α}, ¬ w <:+: t' → t' = t ++ e →
      c :: (w ++ r) = e ++ c :: (w ++ r') → t = t' ∧ r = r' := by
    intro t t' r r' e ht' hsplit hrest
    cases e with
    | nil =>
        rw [List.append_nil] at hsplit
        exact ⟨hsplit.symm, List.append_cancel_left (List.cons.inj hrest).2⟩
    | cons x e =>
        obtain ⟨rfl, hafter⟩ := List.cons.inj hrest
        rcases List.append_eq_append_iff.1 hafter with ⟨f, rfl, -⟩ | ⟨f, hw, hf⟩
        · refine absurd ?_ ht'
          rw [hsplit]
          exact ⟨t ++ [c], f, by simp⟩
        · cases f with
          | nil =>
              refine absurd ?_ ht'
              rw [hsplit, hw, List.append_nil]
              exact ⟨t ++ [c], [], by simp⟩
          | cons y f =>
              obtain ⟨rfl, -⟩ := List.cons.inj hf
              exact absurd (hw ▸ List.mem_append_right e List.mem_cons_self) hc
  rcases List.append_eq_append_iff.1 heq with ⟨e, hsplit, hrest⟩ | ⟨e, hsplit, hrest⟩
  · exact hlonger h' hsplit hrest
  · obtain ⟨htext, hrest⟩ := hlonger h hsplit hrest
    exact ⟨htext.symm, hrest.symm⟩

end AgentPay.Library
