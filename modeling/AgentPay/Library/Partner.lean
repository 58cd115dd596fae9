import AgentPay.Library.Causes

/-!
# A machine beside a partner

A partner of a machine has a state of its own. It notices every operation of the machine, the
answers it has on offer are the only ones the machine gets from it, and it takes steps of its own,
as far as they are admitted, for which it may look at the machine. `Joined` are the pairs of a
configuration and a state that the two reach together. The machine reaches the configuration alone
as well (`Joined.reachable`), so what is known of its runs is known here; what relates the two is
proved by `Joined.invariant`, and what holds from a moment on by `JointLeads.invariant`.
-/

set_option autoImplicit false

namespace AgentPay.Library.Machine

/-- A partner of a machine. -/
structure Partner (World Job Choice : Type) (Op : Type) (Val : Op → Type) (E α P Act : Type) where
  initial : P → Prop
  notices : P → Event Choice Op Val E → P
  offers : P → Event Choice Op Val E → Prop
  act : Config World Job Choice Op Val E α → P → Act → Option P
  admits : Config World Job Choice Op Val E α → P → Act → Prop := fun _ _ _ => True

variable {World Job Env Choice Op : Type} {Val : Op → Type} {E α P Act : Type}
  {M : Machine World Job Env Choice Op Val E α}
  {D : Discipline World Job Env Choice Op Val E α}
  {B : Partner World Job Choice Op Val E α P Act}

/-- A step of the two together. -/
inductive JointMoves (M : Machine World Job Env Choice Op Val E α)
    (D : Discipline World Job Env Choice Op Val E α)
    (B : Partner World Job Choice Op Val E α P Act) :
    Config World Job Choice Op Val E α × P → Config World Job Choice Op Val E α × P → Prop
  | spawn {c : Config World Job Choice Op Val E α} {p : P} (job : Job) (hd : D.spawn c job) :
      JointMoves M D B (c, p) (c.spawn M job, p)
  | act {c : Config World Job Choice Op Val E α} {p : P} (env : Env) (hd : D.act c env) :
      JointMoves M D B (c, p) ({ c with world := M.environment c.world env }, p)
  | run {c : Config World Job Choice Op Val E α} {p : P} {tid : ℕ} {job : Job} {op : Op}
      {next : Except E (Val op) → Prog Op Val E α} {choice : Choice} {w : World}
      {answer : Except E (Val op)} (ht : c.threads[tid]? = some ⟨job, .call op next⟩)
      (hp : M.perform c.world op choice = some (w, answer))
      (hd : D.run c ⟨tid, op, choice, answer⟩) (ho : B.offers p ⟨tid, op, choice, answer⟩) :
      JointMoves M D B (c, p)
        (c.advance ⟨job, next answer⟩ w ⟨tid, op, choice, answer⟩,
          B.notices p ⟨tid, op, choice, answer⟩)
  | partner {c : Config World Job Choice Op Val E α} {p p' : P} (a : Act) (ha : B.admits c p a)
      (h : B.act c p a = some p') : JointMoves M D B (c, p) (c, p')

/-- What the two reach together. -/
inductive Joined (M : Machine World Job Env Choice Op Val E α)
    (D : Discipline World Job Env Choice Op Val E α)
    (B : Partner World Job Choice Op Val E α P Act) :
    Config World Job Choice Op Val E α × P → Prop
  | initial {w : World} {p : P} (hw : D.initial w) (hp : B.initial p) :
      Joined M D B ({ world := w }, p)
  | move {x y : Config World Job Choice Op Val E α × P} (hx : Joined M D B x)
      (h : JointMoves M D B x y) : Joined M D B y

/-- Any number of steps of the two together. -/
abbrev JointLeads (M : Machine World Job Env Choice Op Val E α)
    (D : Discipline World Job Env Choice Op Val E α)
    (B : Partner World Job Choice Op Val E α P Act) :
    Config World Job Choice Op Val E α × P → Config World Job Choice Op Val E α × P → Prop :=
  Relation.ReflTransGen (JointMoves M D B)

variable {x y : Config World Job Choice Op Val E α × P}

/-- The machine moves as it may alone, or stays. -/
theorem JointMoves.fst (h : JointMoves M D B x y) : Moves M D x.1 y.1 ∨ y.1 = x.1 := by
  cases h with
  | spawn job hd => exact .inl (.spawn job hd)
  | act env hd => exact .inl (.act env hd)
  | run ht hp hd _ => exact .inl (.run ht hp hd)
  | partner a ha h => exact .inr rfl

theorem Joined.reachable (h : Joined M D B x) : Reachable M D x.1 := by
  induction h with
  | initial hw _ => exact .initial hw
  | @move x y _ hmove ih =>
      rcases hmove.fst with hmoves | heq
      · exact ih.moves hmoves
      · rw [heq]
        exact ih

theorem JointLeads.fst (h : JointLeads M D B x y) : Leads M D x.1 y.1 := by
  induction h with
  | refl => exact .refl
  | tail _ hmove ih =>
      rcases hmove.fst with hmoves | heq
      · exact ih.tail hmoves
      · rw [heq]
        exact ih

theorem Joined.leads (h : Joined M D B x) (hleads : JointLeads M D B x y) : Joined M D B y := by
  induction hleads with
  | refl => exact h
  | tail _ hmove ih => exact ih.move hmove

/-- The rule for what every step of the two keeps, from a moment on. -/
theorem JointLeads.invariant {I : Config World Job Choice Op Val E α → P → Prop}
    (hx : Joined M D B x) (hstep : ∀ {x y}, Joined M D B x → JointMoves M D B x y →
      I x.1 x.2 → I y.1 y.2) (hleads : JointLeads M D B x y) (h : I x.1 x.2) : I y.1 y.2 := by
  induction hleads with
  | refl => exact h
  | tail hleads hmove ih => exact hstep (hx.leads hleads) hmove ih

/-- The rule for what relates the two in all they reach. -/
theorem Joined.invariant {I : Config World Job Choice Op Val E α → P → Prop}
    (hinit : ∀ w p, D.initial w → B.initial p → I { world := w } p)
    (hstep : ∀ {x y}, Joined M D B x → JointMoves M D B x y → I x.1 x.2 → I y.1 y.2)
    (h : Joined M D B x) : I x.1 x.2 := by
  induction h with
  | initial hw hp => exact hinit _ _ hw hp
  | move hx hmove ih => exact hstep hx hmove ih

/-! ## Fewer steps -/

/-- The partner that takes only the steps a condition admits. -/
abbrev Partner.only (B : Partner World Job Choice Op Val E α P Act)
    (admits : Config World Job Choice Op Val E α → P → Act → Prop) :
    Partner World Job Choice Op Val E α P Act :=
  { B with admits }

variable {admits : Config World Job Choice Op Val E α → P → Act → Prop}

theorem JointMoves.of_only (hB : ∀ c p a, B.admits c p a) (h : JointMoves M D (B.only admits) x y) :
    JointMoves M D B x y := by
  cases h with
  | spawn job hd => exact .spawn job hd
  | act env hd => exact .act env hd
  | run ht hp hd ho => exact .run ht hp hd ho
  | partner a _ h => exact .partner a (hB _ _ a) h

theorem Joined.of_only (hB : ∀ c p a, B.admits c p a) (h : Joined M D (B.only admits) x) :
    Joined M D B x := by
  induction h with
  | initial hw hp => exact .initial hw hp
  | move _ hmove ih => exact ih.move (hmove.of_only hB)

/-! ## Executions -/

/-- A step of the two together, where the machine takes a choice of its own or one on offer. -/
inductive JointLabel (Job Env Choice Act : Type) where
  | machine (label : Label Job Env Choice)
  | receive (tid i : ℕ)
  | partner (a : Act)

/-- Which choices need no offer, which choice the offers have for an operation, and which steps of
the partner are admitted. -/
structure Partner.Offers (P Op Choice Act : Type) where
  free : Op → Choice → Bool
  choice : P → ℕ → Op → ℕ → Option Choice
  admits : P → Act → Bool := fun _ _ => true

/-- The choices are among what the partner offers, and the steps among those it may take. -/
structure Partner.Offers.Sound (B : Partner World Job Choice Op Val E α P Act)
    (F : Partner.Offers P Op Choice Act) (M : Machine World Job Env Choice Op Val E α) : Prop where
  free : ∀ p tid op choice w w' (answer : Except E (Val op)), F.free op choice = true →
    M.perform w op choice = some (w', answer) → B.offers p ⟨tid, op, choice, answer⟩
  choice : ∀ p tid op i choice w w' (answer : Except E (Val op)),
    F.choice p tid op i = some choice → M.perform w op choice = some (w', answer) →
      B.offers p ⟨tid, op, choice, answer⟩
  admits : ∀ c p a, F.admits p a = true → B.admits c p a

/-- One operation of a thread under a choice. -/
def jointRun (M : Machine World Job Env Choice Op Val E α)
    (B : Partner World Job Choice Op Val E α P Act)
    (choose : Op → Option Choice) (tid : ℕ) :
    Config World Job Choice Op Val E α × P → Option (Config World Job Choice Op Val E α × P)
  | (c, p) => match c.threads[tid]? with
      | some ⟨job, .call op next⟩ => (choose op).bind fun choice =>
          (M.perform c.world op choice).map fun (w, answer) =>
            (c.advance ⟨job, next answer⟩ w ⟨tid, op, choice, answer⟩,
              B.notices p ⟨tid, op, choice, answer⟩)
      | _ => none

/-- The execution of one step. -/
def jointStep (M : Machine World Job Env Choice Op Val E α)
    (B : Partner World Job Choice Op Val E α P Act) (F : Partner.Offers P Op Choice Act)
    (x : Config World Job Choice Op Val E α × P) :
    JointLabel Job Env Choice Act → Option (Config World Job Choice Op Val E α × P)
  | .machine (.spawn job) => some (x.1.spawn M job, x.2)
  | .machine (.act env) => some ({ x.1 with world := M.environment x.1.world env }, x.2)
  | .machine (.run tid choice) =>
      jointRun M B (fun op => if F.free op choice then some choice else none) tid x
  | .receive tid i => jointRun M B (fun op => F.choice x.2 tid op i) tid x
  | .partner a =>
      if F.admits x.2 a then (B.act x.1 x.2 a).map fun p => (x.1, p) else none

/-- The execution of a schedule. -/
def jointExecute (M : Machine World Job Env Choice Op Val E α)
    (B : Partner World Job Choice Op Val E α P Act) (F : Partner.Offers P Op Choice Act) :
    Config World Job Choice Op Val E α × P → List (JointLabel Job Env Choice Act) →
      Option (Config World Job Choice Op Val E α × P)
  | x, [] => some x
  | x, l :: ls => (jointStep M B F x l).bind fun y => jointExecute M B F y ls

variable {F : Partner.Offers P Op Choice Act}

theorem JointMoves.of_jointRun (hD : D.Checked {}) {choose : Op → Option Choice} {tid : ℕ}
    (hchoose : ∀ op choice w w' (answer : Except E (Val op)),
      choose op = some choice → M.perform w op choice = some (w', answer) →
        B.offers x.2 ⟨tid, op, choice, answer⟩)
    (h : jointRun M B choose tid x = some y) : JointMoves M D B x y := by
  obtain ⟨c, p⟩ := x
  simp only [jointRun] at h
  split at h
  case h_1 job op next ht =>
      obtain ⟨choice, hchoice, h⟩ := Option.bind_eq_some_iff.1 h
      obtain ⟨⟨w, answer⟩, hp, rfl⟩ := Option.map_eq_some_iff.1 h
      exact .run ht hp (hD.run _ _ rfl) (hchoose op choice _ w answer hchoice hp)
  case h_2 => cases h

/-- An executed step is a step, when the discipline asks for nothing. -/
theorem JointMoves.of_jointStep (hD : D.Checked {}) (hF : F.Sound B M)
    {l : JointLabel Job Env Choice Act} (h : jointStep M B F x l = some y) :
    JointMoves M D B x y := by
  cases l with
  | machine l =>
      cases l with
      | spawn job =>
          cases h
          exact .spawn job (hD.spawn _ job)
      | act env =>
          cases h
          exact .act env (hD.act _ env rfl)
      | run tid choice =>
          refine .of_jointRun hD (fun op choice' w w' answer hchoice hp => ?_) h
          split at hchoice
          case isTrue hfree =>
              cases hchoice
              exact hF.free _ _ _ _ _ _ _ hfree hp
          case isFalse => cases hchoice
  | receive tid i =>
      exact .of_jointRun hD
        (fun op choice w w' answer hchoice hp => hF.choice _ _ _ _ _ _ _ _ hchoice hp) h
  | partner a =>
      simp only [jointStep] at h
      split at h
      case isTrue ha =>
          obtain ⟨p, hp, rfl⟩ := Option.map_eq_some_iff.1 h
          exact .partner a (hF.admits _ _ a ha) hp
      case isFalse => cases h

/-- An executed schedule leads to its end. -/
theorem JointLeads.of_execute (hD : D.Checked {}) (hF : F.Sound B M)
    {ls : List (JointLabel Job Env Choice Act)} (h : jointExecute M B F x ls = some y) :
    JointLeads M D B x y := by
  induction ls generalizing x with
  | nil =>
      cases h
      exact .refl
  | cons l ls ih =>
      obtain ⟨z, hz, h⟩ := Option.bind_eq_some_iff.1 h
      exact (ih h).head (.of_jointStep hD hF hz)

end AgentPay.Library.Machine
