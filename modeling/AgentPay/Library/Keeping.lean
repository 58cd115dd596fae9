import AgentPay.Library.Watching

/-!
# Programs that keep to a condition

A program keeps to a condition on memories and operations when it follows it from every memory,
whatever comes of it (`Prog.Keeps`). Keeping is closed under the constructions of programs, so only
the operations the condition speaks about need a look at the memory; in front of such a program runs
anything that keeps, and what was seen before it is still there (`Keeps.before`).
-/

set_option autoImplicit false

namespace AgentPay.Library.Prog

variable {Op : Type} {Val : Op → Type} {E α β : Type} {G : Seen Op Val E → Op → Prop}

/-- The program follows the condition from every memory. -/
def Keeps (G : Seen Op Val E → Op → Prop) (p : Prog Op Val E α) : Prop :=
  ∀ s, p.Follows (watching G) s fun _ _ => True

theorem keeps_pure (a : α) : Keeps G (pure a : Prog Op Val E α) := fun _ => trivial

theorem keeps_throw (e : E) : Keeps G (throw e : Prog Op Val E α) := fun _ => trivial

theorem keeps_ret (r : Except E α) : Keeps G (ret r : Prog Op Val E α) := fun _ => trivial

/-- An operation the condition permits in every memory. -/
theorem keeps_perform {op : Op} (h : ∀ s, G s op) :
    Keeps G (perform op : Prog Op Val E (Val op)) := fun s => ⟨h s, fun _ => trivial⟩

theorem Keeps.bind {p : Prog Op Val E α} {f : α → Prog Op Val E β} (hp : Keeps G p)
    (hf : ∀ a, Keeps G (f a)) : Keeps G (p >>= f) := fun s =>
  (hp s).bind (fun a s' _ => hf a s') fun _ _ _ => trivial

/-- One operation and what follows it. -/
theorem keeps_perform_bind {op : Op} {f : Val op → Prog Op Val E β} (h : ∀ s, G s op)
    (hf : ∀ a, Keeps G (f a)) : Keeps G (perform op >>= f) := (keeps_perform h).bind hf

theorem Keeps.attempt {p : Prog Op Val E α} (hp : Keeps G p) : Keeps G p.attempt := fun s =>
  (follows_attempt p s _).2 (hp s)

theorem Keeps.recover {p : Prog Op Val E α} {handler : E → Prog Op Val E α} (hp : Keeps G p)
    (hhandler : ∀ e, Keeps G (handler e)) : Keeps G (p.recover handler) := fun s => by
  refine (follows_recover p handler s _).2 ((hp s).mono fun r s' _ => ?_)
  cases r with
  | ok a => trivial
  | error e => exact hhandler e s'

theorem Keeps.ensure {p : Prog Op Val E α} {last : Prog Op Val E Unit} (hp : Keeps G p)
    (hlast : Keeps G last) : Keeps G (p.ensure last) := fun s => by
  refine (follows_ensure p last s _).2 ((hp s).mono fun r s' _ => (hlast s').mono fun r' _ _ => ?_)
  cases r' <;> trivial

/-- A program of operations the condition permits in every memory. -/
theorem Only.keeps {A : Op → Prop} {p : Prog Op Val E α} (hp : p.Only A)
    (hA : ∀ s op, A op → G s op) : Keeps G p := fun s =>
  (hp.extends hA s).mono fun _ _ _ => trivial

/-- Every program keeps to the condition that permits everything. -/
theorem keeps_all (p : Prog Op Val E α) : Keeps (fun _ _ => True) p := by
  induction p with
  | ret r => exact keeps_ret r
  | call op next ih => exact fun s => ⟨trivial, fun answer => ih answer _⟩

/-- A program that follows the condition with any postcondition. -/
theorem keeps_of_follows {p : Prog Op Val E α} {Q : Except E α → Seen Op Val E → Prop}
    (h : ∀ s, p.Follows (watching G) s Q) : Keeps G p := fun s => (h s).mono fun _ _ _ => trivial

/-- What was seen before a program that keeps has been seen after it. -/
theorem Keeps.before {p : Prog Op Val E α} {f : α → Prog Op Val E β} {s : Seen Op Val E}
    {Q : β → Seen Op Val E → Prop} (hp : Keeps G p)
    (hf : ∀ a s', Extends (fun _ => True) s s' → (f a).Follows (watching G) s' (Returns Q)) :
    (p >>= f).Follows (watching G) s (Returns Q) :=
  (hp s).grows.bind (fun a s' h => hf a s' h.2) fun _ _ _ => trivial

/-- A postcondition that memories keep outlives the last step of a program. -/
theorem Follows.ensure_returns {p : Prog Op Val E α} {last : Prog Op Val E Unit}
    {s : Seen Op Val E} {Q : α → Seen Op Val E → Prop} (hp : p.Follows (watching G) s (Returns Q))
    (hlast : Keeps G last) (hQ : ∀ a s s', Q a s → Extends (fun _ => True) s s' → Q a s') :
    (p.ensure last).Follows (watching G) s (Returns Q) := by
  refine (follows_ensure p last s _).2 (hp.mono fun r s' hr => ?_)
  refine (hlast s').grows.mono fun r' s'' h => ?_
  cases r' with
  | error e => trivial
  | ok _ =>
      cases r with
      | error e => trivial
      | ok a => exact hQ a s' s'' hr h.2

end AgentPay.Library.Prog
