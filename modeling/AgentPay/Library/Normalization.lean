import Mathlib

/-!
# Normal forms of texts

A normalisation takes every character apart and puts what came out into a canonical form: it orders
marks and composes neighbours. It never acts across an inert character, keeps the characters it took
apart, and may be applied to the parts of a text first. So a text made of normal parts is normal
exactly when each of its stretches between inert characters is.
-/

set_option autoImplicit false

namespace AgentPay.Library

/-- A normalisation by decomposition and composition, with its inert characters. -/
structure Normalization (α : Type) where
  decomposition : α → List α
  canonical : List α → List α
  Inert : α → Prop
  decomposed : ∀ c, ∀ d ∈ decomposition c, decomposition d = [d]
  decomposition_ne_nil : ∀ c, decomposition c ≠ []
  decomposition_inert : ∀ c, Inert c → decomposition c = [c]
  canonical_inert : ∀ {c}, Inert c → ∀ a b,
    canonical (a ++ c :: b) = canonical a ++ c :: canonical b
  canonical_perm : ∀ {a}, (∀ c ∈ a, decomposition c = [c]) →
    ((canonical a).flatMap decomposition).Perm a
  canonical_new : ∀ {a c}, c ∈ canonical a → c ∈ a ∨ 2 ≤ (decomposition c).length
  canonical_concat : ∀ {a b}, (∀ c ∈ a, decomposition c = [c]) → (∀ c ∈ b, decomposition c = [c]) →
    canonical ((canonical a ++ canonical b).flatMap decomposition) = canonical (a ++ b)

namespace Normalization

variable {α : Type} (N : Normalization α)

/-- The characters a text is taken apart into. -/
def apart (text : List α) : List α := text.flatMap N.decomposition

/-- The normal form of a text. -/
def normal (text : List α) : List α := N.canonical (N.apart text)

/-- No character of the text is inert. -/
def Free (text : List α) : Prop := ∀ c ∈ text, ¬ N.Inert c

/-- No character that is not inert comes apart into inert ones. -/
def Tame (text : List α) : Prop := ∀ c ∈ text, ¬ N.Inert c → N.Free (N.decomposition c)

variable {N}

theorem apart_append (a b : List α) : N.apart (a ++ b) = N.apart a ++ N.apart b :=
  List.flatMap_append

theorem apart_decomposed (text : List α) : ∀ c ∈ N.apart text, N.decomposition c = [c] := by
  intro c hc
  obtain ⟨d, -, hd⟩ := List.mem_flatMap.1 hc
  exact N.decomposed d c hd

/-- A text is free, or has a first inert character. -/
theorem inert_induction {p : List α → Prop} (free : ∀ a, N.Free a → p a)
    (cut : ∀ a c b, N.Free a → N.Inert c → p b → p (a ++ c :: b)) (text : List α) : p text := by
  classical
  -- the characters read since the last inert one are kept in front
  have hread : ∀ (text a : List α), N.Free a → p (a ++ text) := by
    intro text
    induction text with
    | nil =>
        intro a ha
        rw [List.append_nil]
        exact free a ha
    | cons c text ih =>
        intro a ha
        by_cases hc : N.Inert c
        · exact cut a c text ha hc (ih [] fun d hd => absurd hd List.not_mem_nil)
        · rw [List.append_cons]
          refine ih (a ++ [c]) fun d hd => ?_
          rcases List.mem_append.1 hd with hd | hd
          · exact ha d hd
          · rwa [List.mem_singleton.1 hd]
  exact hread text [] fun d hd => absurd hd List.not_mem_nil

/-- The normal form splits at an inert character. -/
theorem normal_inert {c : α} (hc : N.Inert c) (a b : List α) :
    N.normal (a ++ c :: b) = N.normal a ++ c :: N.normal b := by
  have hapart : N.apart (a ++ c :: b) = N.apart a ++ c :: N.apart b := by
    rw [apart_append, apart, apart, List.flatMap_cons, N.decomposition_inert c hc,
      List.singleton_append, apart]
  rw [normal, hapart, N.canonical_inert hc, normal, normal]

/-- An inert character of a canonical form was there before. -/
theorem mem_of_mem_canonical {a : List α} {c : α} (hc : N.Inert c) (h : c ∈ N.canonical a) :
    c ∈ a := by
  refine (N.canonical_new h).resolve_right ?_
  rw [N.decomposition_inert c hc]
  exact Nat.not_succ_le_self 1

theorem Free.canonical {a : List α} (h : N.Free a) : N.Free (N.canonical a) :=
  fun c hc hinert => h c (mem_of_mem_canonical hinert hc) hinert

/-- The normal form of a text is tame. -/
theorem tame_normal (text : List α) : N.Tame (N.normal text) := by
  have hcanonical : ∀ a, (∀ c ∈ a, N.decomposition c = [c]) → N.Tame (N.canonical a) := by
    refine fun a => N.inert_induction (p := fun a => (∀ c ∈ a, N.decomposition c = [c]) →
      N.Tame (N.canonical a)) ?_ ?_ a
    · -- what a free text is made of is free
      intro a hfree hdecomposed c hc _ d hd
      have hmem : d ∈ (N.canonical a).flatMap N.decomposition := List.mem_flatMap.2 ⟨c, hc, hd⟩
      exact hfree d ((N.canonical_perm hdecomposed).mem_iff.1 hmem)
    · intro a c b hfree hc ih hdecomposed e he hne d hd
      rw [N.canonical_inert hc] at he
      have hleft : ∀ x ∈ a, N.decomposition x = [x] :=
        fun x hx => hdecomposed x (List.mem_append_left _ hx)
      rcases List.mem_append.1 he with he | he
      · have hmem : d ∈ (N.canonical a).flatMap N.decomposition := List.mem_flatMap.2 ⟨e, he, hd⟩
        exact hfree d ((N.canonical_perm hleft).mem_iff.1 hmem)
      · rcases List.mem_cons.1 he with rfl | he
        · exact absurd hc hne
        · exact ih (fun x hx => hdecomposed x (List.mem_append_right _ (List.mem_cons_of_mem _ hx)))
            e he hne d hd
  exact hcanonical _ (apart_decomposed text)

theorem Tame.append {a b : List α} (ha : N.Tame a) (hb : N.Tame b) : N.Tame (a ++ b) := by
  intro c hc
  rcases List.mem_append.1 hc with hc | hc
  · exact ha c hc
  · exact hb c hc

theorem Tame.of_append {a b : List α} (h : N.Tame (a ++ b)) : N.Tame a ∧ N.Tame b :=
  ⟨fun c hc => h c (List.mem_append_left _ hc), fun c hc => h c (List.mem_append_right _ hc)⟩

/-- A free and tame text comes apart into free characters. -/
theorem Tame.apart {a : List α} (h : N.Tame a) (hfree : N.Free a) : N.Free (N.apart a) := by
  intro d hd
  obtain ⟨c, hc, hd⟩ := List.mem_flatMap.1 hd
  exact h c hc (hfree c hc) d hd

theorem eq_nil_of_apart {a : List α} (h : (N.apart a).length = 0) : a = [] := by
  cases a with
  | nil => rfl
  | cons c a =>
      rw [apart, List.flatMap_cons, List.length_append] at h
      exact absurd (List.eq_nil_of_length_eq_zero (Nat.eq_zero_of_add_eq_zero_right h))
        (N.decomposition_ne_nil c)

/-- A text before another is told by the number of characters it comes apart into. -/
theorem eq_of_append_eq {a a' b b' : List α} (h : a ++ b = a' ++ b')
    (hlength : (N.apart a).length = (N.apart a').length) : a = a' := by
  rcases List.append_eq_append_iff.1 h with ⟨e, rfl, -⟩ | ⟨e, rfl, -⟩
  · rw [apart_append, List.length_append] at hlength
    have he : e = [] := N.eq_nil_of_apart (by omega)
    rw [he, List.append_nil]
  · rw [apart_append, List.length_append] at hlength
    have he : e = [] := N.eq_nil_of_apart (by omega)
    rw [he, List.append_nil]

theorem length_apart_normal (a : List α) : (N.apart (N.normal a)).length = (N.apart a).length :=
  (N.canonical_perm (apart_decomposed a)).length_eq

theorem normal_eq_nil_iff {a : List α} : N.normal a = [] ↔ a = [] := by
  have hlength := N.length_apart_normal a
  constructor
  · intro h
    rw [h] at hlength
    exact N.eq_nil_of_apart hlength.symm
  · rintro rfl
    exact N.eq_nil_of_apart hlength

/-- Normal forms of two parts may be taken first. -/
theorem normal_append_normal (a b : List α) :
    N.normal (N.normal a ++ N.normal b) = N.normal (a ++ b) := by
  rw [normal, apart, normal, normal,
    N.canonical_concat (apart_decomposed a) (apart_decomposed b), ← apart_append, ← normal]

theorem normal_normal (a : List α) : N.normal (N.normal a) = N.normal a := by
  have hsplit := N.normal_append_normal a []
  rwa [normal_eq_nil_iff.2 rfl, List.append_nil, List.append_nil] at hsplit

/-- Normal forms of any number of parts may be taken first. -/
theorem normal_flatMap_normal (parts : List (List α)) :
    N.normal (parts.flatMap N.normal) = N.normal parts.flatten := by
  induction parts with
  | nil => rfl
  | cons part parts ih =>
      have hrest : N.normal (N.normal part ++ N.normal (parts.flatMap N.normal)) =
          N.normal (N.normal part ++ parts.flatMap N.normal) := by
        rw [← normal_normal part, normal_append_normal, normal_normal]
      rw [List.flatMap_cons, ← hrest, ih, normal_append_normal, List.flatten_cons]

theorem tame_flatMap_normal (parts : List (List α)) : N.Tame (parts.flatMap N.normal) := by
  intro c hc
  obtain ⟨part, -, hc⟩ := List.mem_flatMap.1 hc
  exact tame_normal part c hc

end Normalization

end AgentPay.Library
