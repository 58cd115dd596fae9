import AgentPay.Library.Interleaving

/-!
# What a thread has seen

The protocol `watching` remembers every operation a program performed together with its answer, and
permits an operation when a condition on this memory does. `Extends` is the frame of a program that
performs operations of one kind only: its memory grows by such operations.

In a machine the memory of a thread is its part of the log (`seenBy`), and the condition may depend
on the job. `Reachable.watched_invariant` is the invariant rule with the condition of the operation
at hand, and `Reachable.permitted` reads it back from the log.
-/

set_option autoImplicit false

namespace AgentPay.Library

variable {Op : Type} {Val : Op → Type} {E α β : Type}

/-- Performed operations with their answers, newest first. -/
abbrev Seen (Op : Type) (Val : Op → Type) (E : Type) := List ((op : Op) × Except E (Val op))

/-- The protocol that remembers what was performed. -/
def watching (G : Seen Op Val E → Op → Prop) : Protocol Op Val E (Seen Op Val E) where
  guard := G
  next s op answer := ⟨op, answer⟩ :: s

/-- The later memory adds operations of one kind. -/
def Extends (A : Op → Prop) (s s' : Seen Op Val E) : Prop :=
  ∃ new, s' = new ++ s ∧ ∀ e ∈ new, A e.1

namespace Extends

variable {A B : Op → Prop} {s t u : Seen Op Val E}

theorem refl (A : Op → Prop) (s : Seen Op Val E) : Extends A s s :=
  ⟨[], rfl, fun _ he => absurd he List.not_mem_nil⟩

theorem trans (h : Extends A s t) (h' : Extends A t u) : Extends A s u := by
  obtain ⟨new, rfl, hnew⟩ := h
  obtain ⟨new', rfl, hnew'⟩ := h'
  refine ⟨new' ++ new, (List.append_assoc _ _ _).symm, fun e he => ?_⟩
  rcases List.mem_append.1 he with he | he
  · exact hnew' e he
  · exact hnew e he

theorem cons {op : Op} (h : A op) (answer : Except E (Val op)) (s : Seen Op Val E) :
    Extends A s (⟨op, answer⟩ :: s) := by
  refine ⟨[⟨op, answer⟩], rfl, fun e he => ?_⟩
  cases List.mem_singleton.1 he
  exact h

/-- Everything seen is of the kind when it was at first. -/
theorem forall_mem (h : Extends A s t) {P : Op → Prop} (hs : ∀ e ∈ s, P e.1)
    (hA : ∀ op, A op → P op) : ∀ e ∈ t, P e.1 := by
  obtain ⟨new, rfl, hnew⟩ := h
  intro e he
  rcases List.mem_append.1 he with he | he
  · exact hA _ (hnew e he)
  · exact hs e he

theorem mono (h : Extends A s t) (hAB : ∀ op, A op → B op) : Extends B s t := by
  obtain ⟨new, rfl, hnew⟩ := h
  exact ⟨new, rfl, fun e he => hAB _ (hnew e he)⟩

/-- What was seen stays seen. -/
theorem mem (h : Extends A s t) {e : (op : Op) × Except E (Val op)} (he : e ∈ s) : e ∈ t := by
  obtain ⟨new, rfl, -⟩ := h
  exact List.mem_append_right _ he

/-- What is new is of the kind. -/
theorem mem_cases (h : Extends A s t) {e : (op : Op) × Except E (Val op)} (he : e ∈ t) :
    A e.1 ∨ e ∈ s := by
  obtain ⟨new, rfl, hnew⟩ := h
  exact (List.mem_append.1 he).imp_left (hnew e)

end Extends

namespace Prog

variable {G : Seen Op Val E → Op → Prop} {A : Op → Prop}

/-- A program of operations that are always permitted extends the memory by them. -/
theorem Only.extends {p : Prog Op Val E α} (hp : p.Only A) (hG : ∀ s op, A op → G s op)
    (s : Seen Op Val E) : p.Follows (watching G) s (fun _ s' => Extends A s s') :=
  Follows.of_only (I := fun _ => True) (Extends.refl A) (fun _ _ _ => Extends.trans)
    (fun _ _ _ _ => trivial)
    (fun s op _ hop => ⟨hG s op hop, fun answer => Extends.cons hop answer s⟩) hp trivial

/-- Such a program in front of another one. -/
theorem Only.extends_bind {p : Prog Op Val E α} {f : α → Prog Op Val E β} (hp : p.Only A)
    (hG : ∀ s op, A op → G s op) {s : Seen Op Val E} {Q : β → Seen Op Val E → Prop}
    (hf : ∀ a s', Extends A s s' → (f a).Follows (watching G) s' (Returns Q)) :
    (p >>= f).Follows (watching G) s (Returns Q) :=
  (hp.extends hG s).bind hf fun _ _ _ => trivial

/-- One operation that is always permitted; its answer has been seen from then on. -/
theorem Follows.perform_seen {op : Op} {f : Val op → Prog Op Val E β} {s : Seen Op Val E}
    {Q : β → Seen Op Val E → Prop} (hop : A op) (hG : ∀ s op, A op → G s op)
    (hf : ∀ a s', Extends A s s' → ⟨op, .ok a⟩ ∈ s' →
      (f a).Follows (watching G) s' (Returns Q)) :
    (Prog.perform op >>= f).Follows (watching G) s (Returns Q) :=
  Follows.perform (hG s op hop)
    (fun a => hf a _ (Extends.cons hop (.ok a) s) List.mem_cons_self) fun _ => trivial

/-- A program of operations that are permitted under a condition they keep. -/
theorem Only.extends_while {I : Seen Op Val E → Prop} {p : Prog Op Val E α} (hp : p.Only A)
    (hI : ∀ s s', I s → Extends A s s' → I s') (hG : ∀ s op, I s → A op → G s op)
    {s : Seen Op Val E} (hs : I s) : p.Follows (watching G) s (fun _ s' => Extends A s s') :=
  Follows.of_only (Extends.refl A) (fun _ _ _ => Extends.trans) hI
    (fun s op hs hop => ⟨hG s op hs hop, fun answer => Extends.cons hop answer s⟩) hp hs

/-- Two postconditions. -/
theorem Follows.and {S : Type} {P : Protocol Op Val E S} {p : Prog Op Val E α} {s : S}
    {Q Q' : Except E α → S → Prop} (h : p.Follows P s Q) (h' : p.Follows P s Q') :
    p.Follows P s (fun r s' => Q r s' ∧ Q' r s') := by
  induction p generalizing s with
  | ret r => exact ⟨h, h'⟩
  | call op next ih => exact ⟨h.1, fun answer => ih answer (h.2 answer) (h'.2 answer)⟩

/-- The memory only grows. -/
theorem Follows.grows {p : Prog Op Val E α} {s : Seen Op Val E} {Q : Except E α → Seen Op Val E → Prop}
    (h : p.Follows (watching G) s Q) :
    p.Follows (watching G) s (fun r s' => Q r s' ∧ Extends (fun _ => True) s s') := by
  induction p generalizing s with
  | ret r => exact ⟨h, Extends.refl _ s⟩
  | call op next ih =>
      exact ⟨h.1, fun answer => (ih answer (h.2 answer)).mono fun _ _ hr =>
        ⟨hr.1, (Extends.cons trivial answer s).trans hr.2⟩⟩

/-- An operation has failed. -/
def Failed (s : Seen Op Val E) : Prop := ∃ op e, (⟨op, .error e⟩ : (op : Op) × Except E (Val op)) ∈ s

/-- A program whose operations have all completed raises exceptions of its own only. -/
theorem Follows.raises {p : Prog Op Val E α} {T : E → Prop} (hp : p.Raises T) {s : Seen Op Val E}
    {Q : Except E α → Seen Op Val E → Prop} (h : p.Follows (watching G) s Q) :
    p.Follows (watching G) s (fun r s' => Q r s' ∧ ∀ e, r = .error e → T e ∨ Failed s') := by
  induction p generalizing s with
  | ret r =>
      refine ⟨h, fun e he => ?_⟩
      subst he
      exact .inl hp
  | call op next ih =>
      refine ⟨h.1, fun answer => ?_⟩
      cases answer with
      | ok a => exact ih (.ok a) (hp a) (h.2 (.ok a))
      | error e =>
          refine (h.2 (.error e)).grows.mono fun r s' hr => ⟨hr.1, fun _ _ => ?_⟩
          exact .inr ⟨op, e, hr.2.mem List.mem_cons_self⟩

/-- A postcondition on values, and a condition that any exception leaves behind. -/
def Gives (Q : α → Seen Op Val E → Prop) (T : Seen Op Val E → Prop) :
    Except E α → Seen Op Val E → Prop
  | .ok a, s => Q a s
  | .error _, s => T s

/-- A condition that memories do not lose holds after an exception as well. -/
theorem Follows.gives {p : Prog Op Val E α} {s : Seen Op Val E} {Q : α → Seen Op Val E → Prop}
    {T : Seen Op Val E → Prop} (h : p.Follows (watching G) s (Returns Q))
    (hT : ∀ s', Extends (fun _ => True) s s' → T s') :
    p.Follows (watching G) s (Gives Q T) :=
  h.grows.mono fun r s' hr => by
    cases r with
    | ok a => exact hr.1
    | error e => exact hT s' hr.2

theorem Follows.mono_gives {p : Prog Op Val E α} {s : Seen Op Val E}
    {Q Q' : α → Seen Op Val E → Prop} {T T' : Seen Op Val E → Prop}
    (h : p.Follows (watching G) s (Gives Q T)) (hQ : ∀ a s', Q a s' → Q' a s')
    (hT : ∀ s', T s' → T' s') : p.Follows (watching G) s (Gives Q' T') :=
  h.mono fun r s' hr => by
    cases r with
    | ok a => exact hQ a s' hr
    | error e => exact hT s' hr

theorem Follows.bind_gives {p : Prog Op Val E α} {f : α → Prog Op Val E β} {s : Seen Op Val E}
    {R : α → Seen Op Val E → Prop} {Q : β → Seen Op Val E → Prop} {T : Seen Op Val E → Prop}
    (h : p.Follows (watching G) s (Gives R T))
    (hok : ∀ a s', R a s' → (f a).Follows (watching G) s' (Gives Q T)) :
    (p >>= f).Follows (watching G) s (Gives Q T) :=
  h.bind hok fun _ _ h => h

end Prog

namespace Machine

variable {World Job Env Choice : Type}

/-- What a thread has seen, from the log. -/
def seenBy (tid : ℕ) (log : List (Event Choice Op Val E)) : Seen Op Val E :=
  log.filterMap fun ev => if ev.tid = tid then some ⟨ev.op, ev.answer⟩ else none

theorem mem_seenBy {tid : ℕ} {log : List (Event Choice Op Val E)}
    {e : (op : Op) × Except E (Val op)} : e ∈ seenBy tid log ↔
      ∃ ev ∈ log, ev.tid = tid ∧ (⟨ev.op, ev.answer⟩ : (op : Op) × Except E (Val op)) = e := by
  rw [seenBy, List.mem_filterMap]
  refine exists_congr fun ev => and_congr_right fun _ => ?_
  by_cases htid : ev.tid = tid
  · rw [if_pos htid, Option.some.injEq]
    exact (and_iff_right htid).symm
  · rw [if_neg htid]
    exact iff_of_false (fun h => nomatch h) fun h => htid h.1

theorem seenBy_cons_self (ev : Event Choice Op Val E) (log : List (Event Choice Op Val E)) :
    seenBy ev.tid (ev :: log) = ⟨ev.op, ev.answer⟩ :: seenBy ev.tid log := by
  rw [seenBy, List.filterMap_cons, if_pos rfl]
  rfl

theorem seenBy_cons_of_ne {tid : ℕ} {ev : Event Choice Op Val E} (h : ev.tid ≠ tid)
    (log : List (Event Choice Op Val E)) : seenBy tid (ev :: log) = seenBy tid log := by
  rw [seenBy, List.filterMap_cons, if_neg h]
  rfl

/-- A thread has seen what it had seen before. -/
theorem extends_seenBy (tid : ℕ) (newer older : List (Event Choice Op Val E)) :
    Extends (fun _ => True) (seenBy tid older) (seenBy tid (newer ++ older)) := by
  refine ⟨seenBy tid newer, ?_, fun _ _ => trivial⟩
  rw [seenBy, List.filterMap_append]
  rfl

theorem seenBy_eq_nil {tid : ℕ} {log : List (Event Choice Op Val E)}
    (h : ∀ ev ∈ log, ev.tid ≠ tid) : seenBy tid log = [] := by
  rw [seenBy, List.filterMap_eq_nil_iff]
  exact fun ev hev => if_neg (h ev hev)

section Watched

variable {M : Machine World Job Env Choice Op Val E α}
  {D : Discipline World Job Env Choice Op Val E α} {c : Config World Job Choice Op Val E α}
  {G : Job → Seen Op Val E → Op → Prop} {Post : Job → Except E α → Seen Op Val E → Prop}
  (hstart : ∀ job, (M.start job).Follows (watching (G job)) [] (Post job))

include hstart

/-- Every thread goes on as its part of the log permits. -/
theorem Reachable.watched (hc : Reachable M D c) {tid : ℕ} {thread : Thread Job Op Val E α}
    (ht : c.threads[tid]? = some thread) :
    thread.prog.Follows (watching (G thread.job)) (seenBy tid c.log) (Post thread.job) := by
  induction hc generalizing tid thread with
  | initial _ => cases ht
  | @spawn c job hc _ ih =>
      unfold Config.spawn at ht
      rcases Nat.lt_trichotomy tid c.threads.length with h | rfl | h
      · rw [List.getElem?_append_left h] at ht
        exact ih ht
      · rw [List.getElem?_append_right le_rfl] at ht
        simp only [Nat.sub_self, List.getElem?_cons_zero, Option.some.injEq] at ht
        subst ht
        rw [Config.spawn, seenBy_eq_nil fun ev hev => (hc.proper ev hev).ne]
        exact hstart job
      · rw [List.getElem?_eq_none (by simp; omega)] at ht
        cases ht
  | act env _ _ ih => exact ih ht
  | @run c tid₀ job op next choice w answer hc ht₀ hp _ ih =>
      unfold Config.advance at ht ⊢
      by_cases h : tid₀ = tid
      · subst h
        rw [List.getElem?_set_self (List.getElem?_eq_some_iff.1 ht₀).1, Option.some.injEq] at ht
        subst ht
        change Prog.Follows _ _ (seenBy tid₀ (⟨tid₀, op, choice, answer⟩ :: c.log)) _
        rw [seenBy_cons_self (⟨tid₀, op, choice, answer⟩ : Event Choice Op Val E)]
        exact (ih ht₀).2 answer
      · rw [List.getElem?_set_ne h] at ht
        change Prog.Follows _ _ (seenBy tid (⟨tid₀, op, choice, answer⟩ :: c.log)) _
        rw [seenBy_cons_of_ne h]
        exact ih ht

/-- The operation a thread is about to perform is permitted. -/
theorem Reachable.permits (hc : Reachable M D c) {tid : ℕ} {job : Job} {op : Op}
    {next : Except E (Val op) → Prog Op Val E α}
    (ht : c.threads[tid]? = some ⟨job, .call op next⟩) : G job (seenBy tid c.log) op :=
  (hc.watched hstart ht).1

/-- The result of a thread that has ended. -/
theorem Reachable.ended (hc : Reachable M D c) {tid : ℕ} {job : Job} {r : Except E α}
    (ht : c.threads[tid]? = some ⟨job, .ret r⟩) : Post job r (seenBy tid c.log) :=
  hc.watched hstart ht

/-- The invariant rule for runs. -/
theorem Reachable.watched_invariant {I : Config World Job Choice Op Val E α → Prop}
    (hinit : ∀ w, D.initial w → I { world := w })
    (hspawn : ∀ c job, Reachable M D c → I c → D.spawn c job → I (c.spawn M job))
    (hact : ∀ c env, Reachable M D c → I c → D.act c env →
      I { c with world := M.environment c.world env })
    (hrun : ∀ c tid job op (next : Except E (Val op) → Prog Op Val E α) choice w
      (answer : Except E (Val op)), Reachable M D c → I c →
      c.threads[tid]? = some ⟨job, .call op next⟩ → G job (seenBy tid c.log) op →
      M.perform c.world op choice = some (w, answer) → D.run c ⟨tid, op, choice, answer⟩ →
      I (c.advance ⟨job, next answer⟩ w ⟨tid, op, choice, answer⟩))
    (hc : Reachable M D c) : I c := by
  induction hc with
  | initial hw => exact hinit _ hw
  | spawn job hc hd ih => exact hspawn _ job hc ih hd
  | act env hc hd ih => exact hact _ env hc ih hd
  | run hc ht hp hd ih =>
      exact hrun _ _ _ _ _ _ _ _ hc ih ht (hc.permits hstart ht) hp hd

omit hstart in
/-- The thread of a thread's index keeps its job. -/
theorem Moves.job {c' : Config World Job Choice Op Val E α} (h : Moves M D c c') {tid : ℕ}
    {thread : Thread Job Op Val E α} (ht : c.threads[tid]? = some thread) :
    ∃ thread', c'.threads[tid]? = some thread' ∧ thread'.job = thread.job := by
  cases h with
  | spawn job hd =>
      refine ⟨thread, ?_, rfl⟩
      rw [Config.spawn, List.getElem?_append_left (List.getElem?_eq_some_iff.1 ht).1, ht]
  | act env hd => exact ⟨thread, ht, rfl⟩
  | @run tid₀ job op next choice w answer ht₀ hp hd =>
      rw [Config.advance]
      by_cases htid : tid₀ = tid
      · subst htid
        rw [ht₀, Option.some.injEq] at ht
        subst ht
        exact ⟨_, List.getElem?_set_self (List.getElem?_eq_some_iff.1 ht₀).1, rfl⟩
      · exact ⟨thread, by rw [List.getElem?_set_ne htid, ht], rfl⟩

omit hstart in
theorem Leads.job {c' : Config World Job Choice Op Val E α} (h : Leads M D c c') {tid : ℕ}
    {thread : Thread Job Op Val E α} (ht : c.threads[tid]? = some thread) :
    ∃ thread', c'.threads[tid]? = some thread' ∧ thread'.job = thread.job := by
  induction h with
  | refl => exact ⟨thread, ht, rfl⟩
  | tail _ hmove ih =>
      obtain ⟨thread₁, ht₁, hjob₁⟩ := ih
      obtain ⟨thread₂, ht₂, hjob₂⟩ := hmove.job ht₁
      exact ⟨thread₂, ht₂, hjob₂.trans hjob₁⟩

omit hstart in
/-- The moment at which an event of the log was performed. -/
theorem Reachable.moment (hc : Reachable M D c) {newer older : List (Event Choice Op Val E)}
    {ev : Event Choice Op Val E} (hlog : c.log = newer ++ ev :: older) :
    ∃ c₀ w job next, Reachable M D c₀ ∧ Leads M D c₀ c ∧ c₀.log = older ∧
      c₀.threads[ev.tid]? = some ⟨job, .call ev.op next⟩ ∧
      M.perform c₀.world ev.op ev.choice = some (w, ev.answer) ∧ D.run c₀ ev := by
  induction hc generalizing newer with
  | initial _ => exact absurd hlog (by simp)
  | spawn job hc hd ih =>
      obtain ⟨c₀, w, job₀, next, hc₀, hleads, hrest⟩ := ih hlog
      exact ⟨c₀, w, job₀, next, hc₀, hleads.tail (.spawn job hd), hrest⟩
  | act env hc hd ih =>
      obtain ⟨c₀, w, job₀, next, hc₀, hleads, hrest⟩ := ih hlog
      exact ⟨c₀, w, job₀, next, hc₀, hleads.tail (.act env hd), hrest⟩
  | @run c tid job op next choice w answer hc ht hp hd ih =>
      rcases newer with _ | ⟨last, newer⟩
      · obtain ⟨rfl, rfl⟩ := List.cons.inj hlog
        exact ⟨c, w, job, next, hc, .single (.run ht hp hd), rfl, ht, hp, hd⟩
      · obtain ⟨-, hlog⟩ := List.cons.inj hlog
        obtain ⟨c₀, w₀, job₀, next₀, hc₀, hleads, hrest⟩ := ih hlog
        exact ⟨c₀, w₀, job₀, next₀, hc₀, hleads.tail (.run ht hp hd), hrest⟩

end Watched

end Machine

end AgentPay.Library
