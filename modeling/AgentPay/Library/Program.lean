import Mathlib

/-!
# Programs over fallible operations

A program performs operations one after another; each operation answers with a value or an
exception, and the program ends with a value or an exception. Sequencing propagates exceptions,
`recover` handles them and `ensure` runs a last step whatever happened.

A protocol is an automaton that watches a program: it says in which sessions an operation may be
performed and how an answer changes the session. `Follows` is the weakest precondition of a program
against a protocol: whatever the answers, every operation is permitted in the session it is
performed in, and the result and the last session satisfy a postcondition. `Only` bounds the
operations of a program, and `Follows.of_only` is the frame rule: a program of quiet operations
moves the session no further than they do.
-/

set_option autoImplicit false

namespace AgentPay.Library

/-- A program with operations `Op` answering in `Val`, exceptions `E` and results in `α`. -/
inductive Prog (Op : Type) (Val : Op → Type) (E : Type) (α : Type) where
  | ret (result : Except E α)
  | call (op : Op) (next : Except E (Val op) → Prog Op Val E α)

namespace Prog

variable {Op : Type} {Val : Op → Type} {E α β : Type}

/-- Sequencing; an exception ends the program. -/
def bind : Prog Op Val E α → (α → Prog Op Val E β) → Prog Op Val E β
  | ret (.ok a), f => f a
  | ret (.error e), _ => ret (.error e)
  | call op next, f => call op fun answer => (next answer).bind f

instance : Monad (Prog Op Val E) where
  pure a := ret (.ok a)
  bind := bind

theorem bind_assoc {γ : Type} (p : Prog Op Val E α) (f : α → Prog Op Val E β)
    (g : β → Prog Op Val E γ) : (p >>= f) >>= g = p >>= fun a => f a >>= g := by
  change (p.bind f).bind g = p.bind fun a => (f a).bind g
  induction p with
  | ret r => cases r <;> rfl
  | call op next ih => exact congrArg (call op) (funext ih)

/-- The program of one operation. -/
def perform (op : Op) : Prog Op Val E (Val op) := call op ret

/-- The program that raises an exception. -/
def throw (e : E) : Prog Op Val E α := ret (.error e)

/-- The outcome of a program as a value. -/
def attempt : Prog Op Val E α → Prog Op Val E (Except E α)
  | ret r => ret (.ok r)
  | call op next => call op fun answer => (next answer).attempt

/-- Handling of the exceptions of a program. -/
def recover (p : Prog Op Val E α) (handler : E → Prog Op Val E α) : Prog Op Val E α :=
  p.attempt.bind fun
    | .ok a => ret (.ok a)
    | .error e => handler e

/-- A last step that runs whatever the outcome; an exception of the last step wins. -/
def ensure (p : Prog Op Val E α) (last : Prog Op Val E Unit) : Prog Op Val E α :=
  p.attempt.bind fun r => last.bind fun _ => ret r

/-- The operation a program is about to perform. -/
def pending : Prog Op Val E α → Option Op
  | ret _ => none
  | call op _ => some op

/-- The result of a program that has ended. -/
def result? : Prog Op Val E α → Option (Except E α)
  | ret r => some r
  | call _ _ => none

@[simp] theorem result?_ret (r : Except E α) : (ret r : Prog Op Val E α).result? = some r := rfl
@[simp] theorem result?_call (op : Op) (next : Except E (Val op) → Prog Op Val E α) :
    (call op next).result? = none := rfl

end Prog

/-! ## Protocols -/

/-- An automaton over the operations of a program and their answers. -/
structure Protocol (Op : Type) (Val : Op → Type) (E : Type) (S : Type) where
  guard : S → Op → Prop
  next : S → (op : Op) → Except E (Val op) → S

namespace Prog

variable {Op : Type} {Val : Op → Type} {E α β S : Type} {P : Protocol Op Val E S}

/-- Against every answer the program stays within the protocol and ends in the postcondition. -/
def Follows (P : Protocol Op Val E S) :
    Prog Op Val E α → S → (Except E α → S → Prop) → Prop
  | ret r, s, Q => Q r s
  | call op next, s, Q => P.guard s op ∧ ∀ answer, (next answer).Follows P (P.next s op answer) Q

@[simp] theorem follows_ret (r : Except E α) (s : S) (Q : Except E α → S → Prop) :
    (ret r : Prog Op Val E α).Follows P s Q ↔ Q r s := Iff.rfl

@[simp] theorem follows_pure (a : α) (s : S) (Q : Except E α → S → Prop) :
    (pure a : Prog Op Val E α).Follows P s Q ↔ Q (.ok a) s := Iff.rfl

@[simp] theorem follows_throw (e : E) (s : S) (Q : Except E α → S → Prop) :
    (throw e : Prog Op Val E α).Follows P s Q ↔ Q (.error e) s := Iff.rfl

theorem follows_call (op : Op) (next : Except E (Val op) → Prog Op Val E α) (s : S)
    (Q : Except E α → S → Prop) :
    (call op next).Follows P s Q ↔
      P.guard s op ∧ ∀ answer, (next answer).Follows P (P.next s op answer) Q := Iff.rfl

@[simp] theorem follows_perform (op : Op) (s : S) (Q : Except E (Val op) → S → Prop) :
    (perform op : Prog Op Val E (Val op)).Follows P s Q ↔
      P.guard s op ∧ ∀ answer, Q answer (P.next s op answer) := Iff.rfl

/-- A weaker postcondition. -/
theorem Follows.mono {p : Prog Op Val E α} {s : S} {Q Q' : Except E α → S → Prop}
    (h : p.Follows P s Q) (hQ : ∀ r s', Q r s' → Q' r s') : p.Follows P s Q' := by
  induction p generalizing s with
  | ret r => exact hQ r s h
  | call op next ih => exact ⟨h.1, fun answer => ih answer (h.2 answer)⟩

/-- The rule of sequencing. -/
theorem follows_bind (p : Prog Op Val E α) (f : α → Prog Op Val E β) (s : S)
    (Q : Except E β → S → Prop) :
    (p >>= f).Follows P s Q ↔ p.Follows P s (fun r s' =>
      match r with
      | .ok a => (f a).Follows P s' Q
      | .error e => Q (.error e) s') := by
  change (p.bind f).Follows P s Q ↔ _
  induction p generalizing s with
  | ret r => cases r <;> exact Iff.rfl
  | call op next ih =>
      simp only [bind, follows_call]
      exact and_congr Iff.rfl (forall_congr' fun answer => ih answer _)

/-- The rule of sequencing, one program after the other. -/
theorem Follows.bind {p : Prog Op Val E α} {f : α → Prog Op Val E β} {s : S}
    {R : Except E α → S → Prop} {Q : Except E β → S → Prop} (h : p.Follows P s R)
    (hok : ∀ a s', R (.ok a) s' → (f a).Follows P s' Q)
    (herr : ∀ e s', R (.error e) s' → Q (.error e) s') : (p >>= f).Follows P s Q := by
  rw [follows_bind]
  refine h.mono fun r s' hr => ?_
  cases r with
  | ok a => exact hok a s' hr
  | error e => exact herr e s' hr

theorem follows_attempt (p : Prog Op Val E α) (s : S) (Q : Except E (Except E α) → S → Prop) :
    p.attempt.Follows P s Q ↔ p.Follows P s (fun r s' => Q (.ok r) s') := by
  induction p generalizing s with
  | ret r => exact Iff.rfl
  | call op next ih =>
      simp only [attempt, follows_call]
      exact and_congr Iff.rfl (forall_congr' fun answer => ih answer _)

/-- The rule of exception handling. -/
theorem follows_recover (p : Prog Op Val E α) (handler : E → Prog Op Val E α) (s : S)
    (Q : Except E α → S → Prop) :
    (p.recover handler).Follows P s Q ↔ p.Follows P s (fun r s' =>
      match r with
      | .ok a => Q (.ok a) s'
      | .error e => (handler e).Follows P s' Q) := by
  change (p.attempt >>= _).Follows P s Q ↔ _
  rw [follows_bind, follows_attempt]
  constructor <;> intro h <;> refine h.mono fun r s' hr => ?_ <;> cases r <;> exact hr

/-- The rule of the last step. -/
theorem follows_ensure (p : Prog Op Val E α) (last : Prog Op Val E Unit) (s : S)
    (Q : Except E α → S → Prop) :
    (p.ensure last).Follows P s Q ↔ p.Follows P s (fun r s' =>
      last.Follows P s' (fun r' s'' =>
        match r' with
        | .ok _ => Q r s''
        | .error e => Q (.error e) s'')) := by
  change (p.attempt >>= fun r => last >>= fun _ => ret r).Follows P s Q ↔ _
  rw [follows_bind, follows_attempt]
  constructor <;> intro h <;> refine h.mono fun r s' hr => ?_
  · exact ((follows_bind last _ s' Q).1 hr).mono fun r' s'' h' => by cases r' <;> exact h'
  · exact (follows_bind last _ s' Q).2 (hr.mono fun r' s'' h' => by cases r' <;> exact h')

/-- The rule of one operation and what follows it. -/
theorem Follows.perform {op : Op} {f : Val op → Prog Op Val E β} {s : S}
    {Q : Except E β → S → Prop} (hguard : P.guard s op)
    (hok : ∀ a, (f a).Follows P (P.next s op (.ok a)) Q)
    (herr : ∀ e, Q (.error e) (P.next s op (.error e))) :
    (Prog.perform op >>= f).Follows P s Q := by
  rw [follows_bind]
  refine ⟨hguard, fun answer => ?_⟩
  cases answer with
  | ok a => exact hok a
  | error e => exact herr e

/-- A postcondition on the results that are values. -/
def Returns (Q : α → S → Prop) : Except E α → S → Prop
  | .ok a, s => Q a s
  | .error _, _ => True

theorem Follows.bind_returns {p : Prog Op Val E α} {f : α → Prog Op Val E β} {s : S}
    {R : α → S → Prop} {Q : β → S → Prop} (h : p.Follows P s (Returns R))
    (hok : ∀ a s', R a s' → (f a).Follows P s' (Returns Q)) :
    (p >>= f).Follows P s (Returns Q) :=
  h.bind hok fun _ _ _ => trivial

theorem Follows.perform_returns {op : Op} {f : Val op → Prog Op Val E β} {s : S}
    {Q : β → S → Prop} (hguard : P.guard s op)
    (hok : ∀ a, (f a).Follows P (P.next s op (.ok a)) (Returns Q)) :
    (Prog.perform op >>= f).Follows P s (Returns Q) :=
  Follows.perform hguard hok fun _ => trivial

theorem Follows.mono_returns {p : Prog Op Val E α} {s : S} {Q Q' : α → S → Prop}
    (h : p.Follows P s (Returns Q)) (hQ : ∀ a s', Q a s' → Q' a s') :
    p.Follows P s (Returns Q') :=
  h.mono fun r s' hr => by
    cases r with
    | ok a => exact hQ a s' hr
    | error e => trivial

/-- Every operation of the program lies in a footprint. -/
def Only (A : Op → Prop) : Prog Op Val E α → Prop
  | ret _ => True
  | call op next => A op ∧ ∀ answer, (next answer).Only A

@[simp] theorem only_ret (A : Op → Prop) (r : Except E α) :
    (ret r : Prog Op Val E α).Only A ↔ True := Iff.rfl

@[simp] theorem only_pure (A : Op → Prop) (a : α) :
    (pure a : Prog Op Val E α).Only A ↔ True := Iff.rfl

@[simp] theorem only_throw (A : Op → Prop) (e : E) :
    (throw e : Prog Op Val E α).Only A ↔ True := Iff.rfl

@[simp] theorem only_perform (A : Op → Prop) (op : Op) :
    (Prog.perform op : Prog Op Val E (Val op)).Only A ↔ A op :=
  ⟨fun h => h.1, fun h => ⟨h, fun _ => trivial⟩⟩

theorem Only.bind {A : Op → Prop} {p : Prog Op Val E α} {f : α → Prog Op Val E β} (hp : p.Only A)
    (hf : ∀ a, (f a).Only A) : (p >>= f).Only A := by
  change (p.bind f).Only A
  induction p with
  | ret r =>
      cases r with
      | ok a => exact hf a
      | error e => trivial
  | call op next ih => exact ⟨hp.1, fun answer => ih answer (hp.2 answer)⟩

theorem Only.attempt {A : Op → Prop} {p : Prog Op Val E α} (hp : p.Only A) : p.attempt.Only A := by
  induction p with
  | ret r => trivial
  | call op next ih => exact ⟨hp.1, fun answer => ih answer (hp.2 answer)⟩

theorem Only.recover {A : Op → Prop} {p : Prog Op Val E α} {handler : E → Prog Op Val E α}
    (hp : p.Only A) (hh : ∀ e, (handler e).Only A) : (p.recover handler).Only A := by
  refine Only.bind (f := _) hp.attempt fun r => ?_
  cases r with
  | ok a => trivial
  | error e => exact hh e

theorem Only.ensure {A : Op → Prop} {p : Prog Op Val E α} {last : Prog Op Val E Unit}
    (hp : p.Only A) (hl : last.Only A) : (p.ensure last).Only A :=
  Only.bind (f := fun r => last >>= fun _ => ret r) hp.attempt fun _ => Only.bind hl fun _ => trivial

theorem Only.mono {A B : Op → Prop} {p : Prog Op Val E α} (hp : p.Only A) (h : ∀ op, A op → B op) :
    p.Only B := by
  induction p with
  | ret r => trivial
  | call op next ih => exact ⟨h op hp.1, fun answer => ih answer (hp.2 answer)⟩

theorem Only.and {A B : Op → Prop} {p : Prog Op Val E α} (hp : p.Only A) (hp' : p.Only B) :
    p.Only fun op => A op ∧ B op := by
  induction p with
  | ret r => trivial
  | call op next ih => exact ⟨⟨hp.1, hp'.1⟩, fun answer => ih answer (hp.2 answer) (hp'.2 answer)⟩

/-- The frame rule: a program whose operations are permitted in every session that meets a condition,
and move it along a preorder that keeps the condition, moves the session along that preorder. -/
theorem Follows.of_only {A : Op → Prop} {I : S → Prop} {rel : S → S → Prop}
    (hrefl : ∀ s, rel s s) (htrans : ∀ s t u, rel s t → rel t u → rel s u)
    (hI : ∀ s t, I s → rel s t → I t)
    (hA : ∀ s op, I s → A op → P.guard s op ∧ ∀ answer, rel s (P.next s op answer))
    {p : Prog Op Val E α} (hp : p.Only A) {s : S} (hs : I s) :
    p.Follows P s (fun _ s' => rel s s') := by
  induction p generalizing s with
  | ret r => exact hrefl s
  | call op next ih =>
      obtain ⟨hguard, hnext⟩ := hA s op hs hp.1
      refine ⟨hguard, fun answer => ?_⟩
      exact (ih answer (hp.2 answer) (hI _ _ hs (hnext answer))).mono fun _ s' h =>
        htrans _ _ _ (hnext answer) h

/-- The frame rule for operations that leave the session. -/
theorem Follows.of_only_still {A : Op → Prop} {s : S}
    (hA : ∀ op, A op → P.guard s op ∧ ∀ answer, P.next s op answer = s) {p : Prog Op Val E α}
    (hp : p.Only A) : p.Follows P s (fun _ s' => s' = s) := by
  induction p with
  | ret r => rfl
  | call op next ih =>
      obtain ⟨hguard, hnext⟩ := hA op hp.1
      refine ⟨hguard, fun answer => ?_⟩
      rw [hnext answer]
      exact ih answer (hp.2 answer)

/-! ## Exceptions of its own -/

/-- The program raises these exceptions only, as long as its operations complete. -/
def Raises (T : E → Prop) : Prog Op Val E α → Prop
  | ret (.ok _) => True
  | ret (.error e) => T e
  | call _ next => ∀ a, (next (.ok a)).Raises T

section Raises

variable {T T' : E → Prop}

@[simp] theorem raises_pure (T : E → Prop) (a : α) : (pure a : Prog Op Val E α).Raises T ↔ True :=
  Iff.rfl

@[simp] theorem raises_throw (T : E → Prop) (e : E) :
    (throw e : Prog Op Val E α).Raises T ↔ T e := Iff.rfl

@[simp] theorem raises_perform (T : E → Prop) (op : Op) :
    (Prog.perform op : Prog Op Val E (Val op)).Raises T ↔ True :=
  ⟨fun _ => trivial, fun _ _ => trivial⟩

theorem Raises.bind {p : Prog Op Val E α} {f : α → Prog Op Val E β} (hp : p.Raises T)
    (hf : ∀ a, (f a).Raises T) : (p >>= f).Raises T := by
  change (p.bind f).Raises T
  induction p with
  | ret r =>
      cases r with
      | ok a => exact hf a
      | error e => exact hp
  | call op next ih => exact fun a => ih (.ok a) (hp a)

theorem Raises.recover {p : Prog Op Val E α} {handler : E → Prog Op Val E α} (hp : p.Raises T)
    (hh : ∀ e, T e → (handler e).Raises T') : (p.recover handler).Raises T' := by
  induction p with
  | ret r =>
      cases r with
      | ok a => trivial
      | error e => exact hh e hp
  | call op next ih => exact fun a => ih (.ok a) (hp a)

theorem Raises.ensure {p : Prog Op Val E α} {last : Prog Op Val E Unit} (hp : p.Raises T)
    (hl : last.Raises T) : (p.ensure last).Raises T := by
  induction p with
  | ret r => exact Raises.bind (f := fun _ => ret r) hl fun _ => by cases r <;> exact hp
  | call op next ih => exact fun a => ih (.ok a) (hp a)

end Raises

/-! ## Deterministic evaluation -/

/-- The evaluation of a program in a world that answers every operation. -/
def eval {W : Type} (answer : W → (op : Op) → Except E (Val op) × W) :
    Prog Op Val E α → W → Except E α × W
  | ret r, w => (r, w)
  | call op next, w => (next (answer w op).1).eval answer (answer w op).2

section Eval

variable {W : Type} {answer : W → (op : Op) → Except E (Val op) × W}

@[simp] theorem eval_ret (r : Except E α) (w : W) :
    (ret r : Prog Op Val E α).eval answer w = (r, w) := rfl

@[simp] theorem eval_pure (a : α) (w : W) :
    (pure a : Prog Op Val E α).eval answer w = (.ok a, w) := rfl

@[simp] theorem eval_throw (e : E) (w : W) :
    (throw e : Prog Op Val E α).eval answer w = (.error e, w) := rfl

@[simp] theorem eval_perform (op : Op) (w : W) :
    (perform op : Prog Op Val E (Val op)).eval answer w = answer w op := rfl

theorem eval_bind (p : Prog Op Val E α) (f : α → Prog Op Val E β) (w : W) :
    (p >>= f).eval answer w =
      match p.eval answer w with
      | (.ok a, w') => (f a).eval answer w'
      | (.error e, w') => (.error e, w') := by
  change (p.bind f).eval answer w = _
  induction p generalizing w with
  | ret r => cases r <;> rfl
  | call op next ih => exact ih _ _

theorem eval_bind_ok {p : Prog Op Val E α} {w : W} {a : α} (h : (p.eval answer w).1 = .ok a)
    (f : α → Prog Op Val E β) :
    (p >>= f).eval answer w = (f a).eval answer (p.eval answer w).2 := by
  rw [eval_bind]
  generalize p.eval answer w = result at h ⊢
  obtain ⟨r, w'⟩ := result
  cases h
  rfl

theorem eval_bind_error {p : Prog Op Val E α} {w : W} {e : E} (h : (p.eval answer w).1 = .error e)
    (f : α → Prog Op Val E β) : (p >>= f).eval answer w = (.error e, (p.eval answer w).2) := by
  rw [eval_bind]
  generalize p.eval answer w = result at h ⊢
  obtain ⟨r, w'⟩ := result
  cases h
  rfl

/-- A program followed by a value ends as the program does. -/
theorem eval_bind_pure (p : Prog Op Val E α) (b : α → β) (w : W) :
    (p >>= fun a => (pure (b a) : Prog Op Val E β)).eval answer w =
      ((p.eval answer w).1.map b, (p.eval answer w).2) := by
  rw [eval_bind]
  obtain ⟨r, w'⟩ := p.eval answer w
  cases r <;> rfl

theorem eval_attempt (p : Prog Op Val E α) (w : W) :
    p.attempt.eval answer w = (.ok (p.eval answer w).1, (p.eval answer w).2) := by
  induction p generalizing w with
  | ret r => rfl
  | call op next ih => exact ih _ _

theorem eval_recover (p : Prog Op Val E α) (handler : E → Prog Op Val E α) (w : W) :
    (p.recover handler).eval answer w =
      match p.eval answer w with
      | (.ok a, w') => (.ok a, w')
      | (.error e, w') => (handler e).eval answer w' := by
  change (p.attempt >>= _).eval answer w = _
  rw [eval_bind, eval_attempt]
  obtain ⟨r, w'⟩ := p.eval answer w
  cases r <;> rfl

theorem eval_ensure (p : Prog Op Val E α) (last : Prog Op Val E Unit) (w : W) :
    (p.ensure last).eval answer w =
      match last.eval answer (p.eval answer w).2 with
      | (.ok _, w') => ((p.eval answer w).1, w')
      | (.error e, w') => (.error e, w') := by
  change (p.attempt >>= fun r => last >>= fun _ => ret r).eval answer w = _
  rw [eval_bind, eval_attempt]
  change (last >>= fun _ => ret _).eval answer _ = _
  rw [eval_bind]
  obtain ⟨r, w'⟩ := last.eval answer (p.eval answer w).2
  cases r <;> rfl

/-- The operations the evaluation of a program performs. -/
def performed (answer : W → (op : Op) → Except E (Val op) × W) : Prog Op Val E α → W → List Op
  | ret _, _ => []
  | call op next, w => op :: (next (answer w op).1).performed answer (answer w op).2

@[simp] theorem performed_ret (r : Except E α) (w : W) :
    (ret r : Prog Op Val E α).performed answer w = [] := rfl

@[simp] theorem performed_perform (op : Op) (w : W) :
    (perform op : Prog Op Val E (Val op)).performed answer w = [op] := rfl

theorem performed_bind (p : Prog Op Val E α) (f : α → Prog Op Val E β) (w : W) :
    (p >>= f).performed answer w = p.performed answer w ++
      match p.eval answer w with
      | (.ok a, w') => (f a).performed answer w'
      | (.error _, _) => [] := by
  change (p.bind f).performed answer w = _
  induction p generalizing w with
  | ret r => cases r <;> rfl
  | call op next ih => exact congrArg (op :: ·) (ih _ _)

theorem performed_bind_ok {p : Prog Op Val E α} {w : W} {a : α} (h : (p.eval answer w).1 = .ok a)
    (f : α → Prog Op Val E β) : (p >>= f).performed answer w =
      p.performed answer w ++ (f a).performed answer (p.eval answer w).2 := by
  rw [performed_bind]
  generalize p.eval answer w = result at h ⊢
  obtain ⟨r, w'⟩ := result
  cases h
  rfl

theorem performed_bind_error {p : Prog Op Val E α} {w : W} {e : E}
    (h : (p.eval answer w).1 = .error e) (f : α → Prog Op Val E β) :
    (p >>= f).performed answer w = p.performed answer w := by
  rw [performed_bind]
  generalize p.eval answer w = result at h ⊢
  obtain ⟨r, w'⟩ := result
  cases h
  exact List.append_nil _

/-- Every operation performed lies in the footprint of the program. -/
theorem Only.performed {A : Op → Prop} {p : Prog Op Val E α} (hp : p.Only A) {w : W} :
    ∀ op ∈ p.performed answer w, A op := by
  induction p generalizing w with
  | ret r => exact fun op hop => absurd hop List.not_mem_nil
  | call op next ih =>
      intro op' hop'
      rcases List.mem_cons.1 hop' with rfl | hop'
      · exact hp.1
      · exact ih _ (hp.2 _) op' hop'

/-- The operations the evaluation of a program performs, each with the world it is performed in. -/
def trace (answer : W → (op : Op) → Except E (Val op) × W) : Prog Op Val E α → W → List (W × Op)
  | ret _, _ => []
  | call op next, w => (w, op) :: (next (answer w op).1).trace answer (answer w op).2

@[simp] theorem trace_ret (r : Except E α) (w : W) :
    (ret r : Prog Op Val E α).trace answer w = [] := rfl

@[simp] theorem trace_pure (a : α) (w : W) :
    (pure a : Prog Op Val E α).trace answer w = [] := rfl

@[simp] theorem trace_perform (op : Op) (w : W) :
    (perform op : Prog Op Val E (Val op)).trace answer w = [(w, op)] := rfl

/-- The operations of a sequence are those of the first program and, when it ends with a value, those of
the second. -/
theorem mem_trace_bind {p : Prog Op Val E α} {f : α → Prog Op Val E β} {w : W} {x : W × Op} :
    x ∈ (p >>= f).trace answer w ↔ x ∈ p.trace answer w ∨
      ∃ a, (p.eval answer w).1 = .ok a ∧ x ∈ (f a).trace answer (p.eval answer w).2 := by
  change x ∈ (p.bind f).trace answer w ↔ _
  induction p generalizing w with
  | ret r =>
      cases r with
      | ok a =>
          constructor
          · exact fun h => .inr ⟨a, rfl, h⟩
          · rintro (h | ⟨a', ha, h⟩)
            · exact absurd h List.not_mem_nil
            · cases ha
              exact h
      | error e =>
          refine iff_of_false List.not_mem_nil ?_
          rintro (h | ⟨a, ha, -⟩)
          · exact List.not_mem_nil h
          · cases ha
  | call op next ih =>
      change x ∈ (w, op) :: ((next (answer w op).1).bind f).trace answer _ ↔
        x ∈ (w, op) :: (next (answer w op).1).trace answer _ ∨ _
      rw [List.mem_cons, List.mem_cons, ih, or_assoc]
      rfl

theorem mem_trace_attempt {p : Prog Op Val E α} {w : W} {x : W × Op} :
    x ∈ p.attempt.trace answer w ↔ x ∈ p.trace answer w := by
  induction p generalizing w with
  | ret r => exact Iff.rfl
  | call op next ih =>
      change x ∈ (w, op) :: (next (answer w op).1).attempt.trace answer _ ↔
        x ∈ (w, op) :: (next (answer w op).1).trace answer _
      rw [List.mem_cons, List.mem_cons, ih]

/-- Every operation of the trace lies in the footprint of the program. -/
theorem Only.trace {A : Op → Prop} {p : Prog Op Val E α} (hp : p.Only A) {w : W} {x : W × Op}
    (hx : x ∈ p.trace answer w) : A x.2 := by
  induction p generalizing w with
  | ret r => exact absurd hx List.not_mem_nil
  | call op next ih =>
      rcases List.mem_cons.1 hx with rfl | hx
      · exact hp.1
      · exact ih _ (hp.2 _) hx

/-- The frame rule of evaluation: what no operation of the footprint changes is not changed. -/
theorem Only.eval_frame {X : Type} {A : Op → Prop} {f : W → X}
    (hA : ∀ w op, A op → f (answer w op).2 = f w) {p : Prog Op Val E α} (hp : p.Only A) (w : W) :
    f (p.eval answer w).2 = f w := by
  induction p generalizing w with
  | ret r => rfl
  | call op next ih => exact (ih _ (hp.2 _) _).trans (hA w op hp.1)

end Eval

end Prog

end AgentPay.Library
