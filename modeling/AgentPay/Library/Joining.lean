import Mathlib

/-!
# Texts joined by a separator

Two pairs of texts joined by one separator give one text exactly when they are one pair or one of
them blurs into the other: its first text is continued, behind a separator, by a text the second text
of the other begins with (`join_eq_iff`). A second text without the separator can be split off
(`join_last`).
-/

set_option autoImplicit false

namespace AgentPay.Library

/-- The first text of the second pair continues that of the first pair across a separator. -/
def Straddles (sep a b c d : String) : Prop := ∃ s, c = a ++ sep ++ s ∧ b = s ++ sep ++ d

/-- One of the pairs straddles the other. -/
def Blurs (sep a b c d : String) : Prop := Straddles sep a b c d ∨ Straddles sep c d a b

theorem Blurs.symm {sep a b c d : String} (h : Blurs sep a b c d) : Blurs sep c d a b := Or.symm h

/-- Of two first texts one is longer. -/
theorem Blurs.length_ne {sep a b c d : String} (hsep : 0 < sep.length) (h : Blurs sep a b c d) :
    a.length ≠ c.length := by
  rcases h with ⟨s, rfl, -⟩ | ⟨s, rfl, -⟩ <;> simp only [String.length_append] <;> omega

/-- Joined texts are equal only when the pairs are, or when one straddles the other. -/
theorem join_eq_iff {sep : String} {x : Char} (hsep : sep.toList = [x]) (a b c d : String) :
    a ++ sep ++ b = c ++ sep ++ d ↔ (a = c ∧ b = d) ∨ Blurs sep a b c d := by
  have hlist : ∀ a b : String, (a ++ sep ++ b).toList = a.toList ++ x :: b.toList := by
    intro a b
    rw [String.toList_append, String.toList_append, hsep, List.append_assoc, List.singleton_append]
  -- the longer first text holds the separator of the other pair
  have hlonger : ∀ {a b c d : String} {e : List Char}, c.toList = a.toList ++ e →
      x :: b.toList = e ++ x :: d.toList → (a = c ∧ b = d) ∨ Straddles sep a b c d := by
    intro a b c d e hc hb
    cases e with
    | nil =>
        rw [List.append_nil] at hc
        exact .inl ⟨(String.toList_inj.1 hc).symm, String.toList_inj.1 (List.cons.inj hb).2⟩
    | cons y s =>
        obtain ⟨rfl, hs⟩ := List.cons.inj hb
        refine .inr ⟨String.ofList s, ?_, ?_⟩
        · rw [← String.toList_inj, hlist, hc, String.toList_ofList]
        · rw [← String.toList_inj, hlist, String.toList_ofList]
          exact hs
  constructor
  · intro h
    rw [← String.toList_inj, hlist, hlist] at h
    rcases List.append_eq_append_iff.1 h with ⟨e, hc, hb⟩ | ⟨e, ha, hd⟩
    · exact (hlonger hc hb).imp_right Or.inl
    · rcases hlonger ha hd with ⟨rfl, rfl⟩ | hs
      · exact .inl ⟨rfl, rfl⟩
      · exact .inr (.inr hs)
  · rintro (⟨rfl, rfl⟩ | ⟨s, rfl, rfl⟩ | ⟨s, rfl, rfl⟩)
    · rfl
    · simp only [String.append_assoc]
    · simp only [String.append_assoc]

/-- A second text without the separator can be split off. -/
theorem join_last {sep : String} {x : Char} (hsep : sep.toList = [x]) {a b c d : String}
    (hb : x ∉ b.toList) (hd : x ∉ d.toList) (h : a ++ sep ++ b = c ++ sep ++ d) :
    a = c ∧ b = d := by
  have hmem : ∀ s t : String, x ∈ (s ++ sep ++ t).toList := by
    intro s t
    rw [String.toList_append, String.toList_append, hsep]
    simp
  rcases (join_eq_iff hsep a b c d).1 h with heq | ⟨s, -, rfl⟩ | ⟨s, -, rfl⟩
  · exact heq
  · exact absurd (hmem s d) hb
  · exact absurd (hmem s b) hd

end AgentPay.Library
