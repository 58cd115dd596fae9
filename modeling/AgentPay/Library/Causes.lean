import AgentPay.Library.Watching

/-!
# What holds, and since when

What a session of a thread knows is what the thread has seen (`seen_of_replay`, `replay_of_seen`). A
condition on worlds that every step keeps holds from the moment it held (`Leads.persists`), and from
the operation that brought it about (`Reachable.established`). A condition that does not hold at
first and that only some events bring about has such an event in the log (`Reachable.cause`).
-/

set_option autoImplicit false

namespace AgentPay.Library.Machine

variable {World Job Env Choice Op : Type} {Val : Op → Type} {E α : Type}
  {M : Machine World Job Env Choice Op Val E α}
  {D : Discipline World Job Env Choice Op Val E α} {c c' : Config World Job Choice Op Val E α}

/-- Every step keeps the condition. -/
structure Persists (M : Machine World Job Env Choice Op Val E α) (P : World → Prop) : Prop where
  act : ∀ w env, P w → P (M.environment w env)
  perform : ∀ {w op choice w'} {answer : Except E (Val op)},
    M.perform w op choice = some (w', answer) → P w → P w'

theorem Leads.persists {P : World → Prop} (hP : Persists M P) (h : Leads M D c c')
    (hw : P c.world) :
    P c'.world := by
  induction h with
  | refl => exact hw
  | tail _ hmove ih =>
      cases hmove with
      | spawn job hd => exact ih
      | act env hd => exact hP.act _ env ih
      | run ht hp hd => exact hP.perform hp ih

/-- What an operation of the log brought about holds since. -/
theorem Reachable.established {P : World → Prop} (hP : Persists M P) {op : Op}
    {answer : Except E (Val op)} (hop : ∀ {w choice w'},
      M.perform w op choice = some (w', answer) → P w') (hc : Reachable M D c) {tid : ℕ}
    (h : ⟨op, answer⟩ ∈ seenBy tid c.log) : P c.world := by
  obtain ⟨ev, hev, rfl, heq⟩ := mem_seenBy.1 h
  cases heq
  clear h
  induction hc with
  | initial _ => cases hev
  | spawn job _ _ ih => exact ih hev
  | act env _ _ ih => exact hP.act _ env (ih hev)
  | run hc ht hp hd ih =>
      rcases List.mem_cons.1 hev with rfl | hev
      · exact hop hp
      · exact hP.perform hp (ih hev)

/-- What did not hold at first was brought about by an event of the log. -/
theorem Reachable.cause {P : World → Prop} {Q : Event Choice Op Val E → Prop}
    (hinit : ∀ w, D.initial w → ¬ P w) (hact : ∀ w env, P (M.environment w env) → P w)
    (hrun : ∀ {w tid op choice w'} {answer : Except E (Val op)},
      M.perform w op choice = some (w', answer) → P w' → P w ∨ Q ⟨tid, op, choice, answer⟩)
    (hc : Reachable M D c) (h : P c.world) : ∃ ev ∈ c.log, Q ev := by
  induction hc with
  | initial hw => exact absurd h (hinit _ hw)
  | spawn job _ _ ih => exact ih h
  | act env _ _ ih => exact ih (hact _ env h)
  | run hc ht hp hd ih =>
      rcases hrun hp h with h | h
      · obtain ⟨ev, hev, hQ⟩ := ih h
        exact ⟨ev, List.mem_cons_of_mem _ hev, hQ⟩
      · exact ⟨_, List.mem_cons_self, h⟩

/-! ## Sessions -/

section Sessions

variable {S : Type} (P : Protocol Op Val E S) {K : S → Prop} {s : S} {tid : ℕ}
  {log : List (Event Choice Op Val E)}

/-- What a session knows and did not know at first, the thread has seen. -/
theorem seen_of_replay {L : (op : Op) × Except E (Val op) → Prop}
    (hnext : ∀ s op answer, K (P.next s op answer) → K s ∨ L ⟨op, answer⟩) (hs : ¬ K s)
    (h : K (replay P s tid log)) : ∃ e ∈ seenBy tid log, L e := by
  induction log with
  | nil => exact absurd h hs
  | cons ev log ih =>
      by_cases htid : ev.tid = tid
      · subst htid
        rw [seenBy_cons_self]
        rw [replay, if_pos rfl] at h
        rcases hnext _ _ _ h with h | h
        · obtain ⟨e, he, hL⟩ := ih h
          exact ⟨e, List.mem_cons_of_mem _ he, hL⟩
        · exact ⟨_, List.mem_cons_self, h⟩
      · rw [seenBy_cons_of_ne htid]
        rw [replay, if_neg htid] at h
        exact ih h

/-- What an answer tells a session and no answer makes it forget, it knows once the thread has seen
the answer. -/
theorem replay_of_seen (hkeep : ∀ s op answer, K s → K (P.next s op answer)) {op : Op}
    {answer : Except E (Val op)} (htell : ∀ s, K (P.next s op answer))
    (h : ⟨op, answer⟩ ∈ seenBy tid log) : K (replay P s tid log) := by
  induction log with
  | nil => exact absurd h List.not_mem_nil
  | cons ev log ih =>
      by_cases htid : ev.tid = tid
      · subst htid
        rw [seenBy_cons_self] at h
        rw [replay, if_pos rfl]
        rcases List.mem_cons.1 h with heq | h
        · cases heq
          exact htell _
        · exact hkeep _ _ _ (ih h)
      · rw [seenBy_cons_of_ne htid] at h
        rw [replay, if_neg htid]
        exact ih h

end Sessions

end AgentPay.Library.Machine
