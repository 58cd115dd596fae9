import AgentPay.Library.Program

/-!
# Interleavings of programs over a shared world

A machine runs any number of jobs over one world. At each step the environment acts, a new job is
started, or one thread performs its pending operation; which thread moves, and the nondeterministic
part of the operation, is a choice. Every performed operation is recorded in a log, newest first.

`Machine.Reachable` is reachability under a discipline, a condition on each step that may look at
the configuration before it. The log determines the session of every thread in a protocol
(`session`). If every job follows the protocol from its initial session, then so does every thread
of a reachable configuration from its present session (`Reachable.follows`); hence the operation a
thread performs is permitted in its session, and an invariant is proved on sessions and world alone,
without looking at the programs (`Reachable.invariant`).
-/

set_option autoImplicit false

namespace AgentPay.Library

/-- A machine: the programs of the jobs, the effect of an operation under a choice, and the effect
of the environment. A choice that does not fit the operation has no effect to offer. -/
structure Machine (World Job Env Choice : Type) (Op : Type) (Val : Op → Type) (E α : Type) where
  start : Job → Prog Op Val E α
  perform : World → (op : Op) → Choice → Option (World × Except E (Val op))
  environment : World → Env → World

namespace Machine

variable {World Job Env Choice Op : Type} {Val : Op → Type} {E α S : Type}

/-- A thread: its job and what is left of its program. -/
structure Thread (Job Op : Type) (Val : Op → Type) (E α : Type) where
  job : Job
  prog : Prog Op Val E α

/-- A performed operation: the thread, the operation, the choice and the answer. -/
structure Event (Choice Op : Type) (Val : Op → Type) (E : Type) where
  tid : ℕ
  op : Op
  choice : Choice
  answer : Except E (Val op)

/-- A configuration: the world, the threads in the order they were started, and the log. -/
structure Config (World Job Choice Op : Type) (Val : Op → Type) (E α : Type) where
  world : World
  threads : List (Thread Job Op Val E α) := []
  log : List (Event Choice Op Val E) := []

/-- The start of a job. -/
def Config.spawn (M : Machine World Job Env Choice Op Val E α)
    (c : Config World Job Choice Op Val E α) (job : Job) : Config World Job Choice Op Val E α :=
  { c with threads := c.threads ++ [⟨job, M.start job⟩] }

/-- The configuration after a thread performed an operation. -/
def Config.advance (c : Config World Job Choice Op Val E α) (thread : Thread Job Op Val E α)
    (world : World) (event : Event Choice Op Val E) : Config World Job Choice Op Val E α where
  world := world
  threads := c.threads.set event.tid thread
  log := event :: c.log

/-- A step of the machine. -/
inductive Label (Job Env Choice : Type) where
  | spawn (job : Job)
  | act (env : Env)
  | run (tid : ℕ) (choice : Choice)

/-- Boolean checks of the steps of an execution. -/
structure Checks (World Job Env Choice Op : Type) (Val : Op → Type) (E α : Type) where
  act : Config World Job Choice Op Val E α → Env → Bool := fun _ _ => true
  run : Config World Job Choice Op Val E α → Event Choice Op Val E → Bool := fun _ _ => true

/-- The execution of one step, if it is possible and passes its check. -/
def step (M : Machine World Job Env Choice Op Val E α)
    (checks : Checks World Job Env Choice Op Val E α) (c : Config World Job Choice Op Val E α) :
    Label Job Env Choice → Option (Config World Job Choice Op Val E α)
  | .spawn job => some (c.spawn M job)
  | .act env =>
      if checks.act c env then some { c with world := M.environment c.world env } else none
  | .run tid choice =>
      match c.threads[tid]? with
      | some ⟨job, .call op next⟩ =>
          (M.perform c.world op choice).bind fun (w, answer) =>
            if checks.run c ⟨tid, op, choice, answer⟩ then
              some (c.advance ⟨job, next answer⟩ w ⟨tid, op, choice, answer⟩)
            else none
      | _ => none

/-- The execution of a schedule. -/
def run (M : Machine World Job Env Choice Op Val E α)
    (checks : Checks World Job Env Choice Op Val E α) :
    Config World Job Choice Op Val E α → List (Label Job Env Choice) →
      Option (Config World Job Choice Op Val E α)
  | c, [] => some c
  | c, l :: ls => (M.step checks c l).bind fun c' => M.run checks c' ls

/-- A condition on the steps of a run; each part may look at the configuration before the step. -/
structure Discipline (World Job Env Choice Op : Type) (Val : Op → Type) (E α : Type) where
  initial : World → Prop := fun _ => True
  spawn : Config World Job Choice Op Val E α → Job → Prop := fun _ _ => True
  act : Config World Job Choice Op Val E α → Env → Prop := fun _ _ => True
  run : Config World Job Choice Op Val E α → Event Choice Op Val E → Prop := fun _ _ => True

/-- The configurations reachable by steps that meet a discipline. -/
inductive Reachable (M : Machine World Job Env Choice Op Val E α)
    (D : Discipline World Job Env Choice Op Val E α) : Config World Job Choice Op Val E α → Prop
  | initial {w : World} (hw : D.initial w) : Reachable M D { world := w }
  | spawn {c : Config World Job Choice Op Val E α} (job : Job) (hc : Reachable M D c)
      (hd : D.spawn c job) : Reachable M D (c.spawn M job)
  | act {c : Config World Job Choice Op Val E α} (env : Env) (hc : Reachable M D c)
      (hd : D.act c env) : Reachable M D { c with world := M.environment c.world env }
  | run {c : Config World Job Choice Op Val E α} {tid : ℕ} {job : Job} {op : Op}
      {next : Except E (Val op) → Prog Op Val E α} {choice : Choice} {w : World}
      {answer : Except E (Val op)} (hc : Reachable M D c)
      (ht : c.threads[tid]? = some ⟨job, .call op next⟩)
      (hp : M.perform c.world op choice = some (w, answer))
      (hd : D.run c ⟨tid, op, choice, answer⟩) :
      Reachable M D (c.advance ⟨job, next answer⟩ w ⟨tid, op, choice, answer⟩)

variable {M : Machine World Job Env Choice Op Val E α}
  {D : Discipline World Job Env Choice Op Val E α}

/-- One step that meets a discipline. -/
inductive Moves (M : Machine World Job Env Choice Op Val E α)
    (D : Discipline World Job Env Choice Op Val E α) (c : Config World Job Choice Op Val E α) :
    Config World Job Choice Op Val E α → Prop
  | spawn (job : Job) (hd : D.spawn c job) : Moves M D c (c.spawn M job)
  | act (env : Env) (hd : D.act c env) : Moves M D c { c with world := M.environment c.world env }
  | run {tid : ℕ} {job : Job} {op : Op} {next : Except E (Val op) → Prog Op Val E α}
      {choice : Choice} {w : World} {answer : Except E (Val op)}
      (ht : c.threads[tid]? = some ⟨job, .call op next⟩)
      (hp : M.perform c.world op choice = some (w, answer))
      (hd : D.run c ⟨tid, op, choice, answer⟩) :
      Moves M D c (c.advance ⟨job, next answer⟩ w ⟨tid, op, choice, answer⟩)

theorem Reachable.moves {c c' : Config World Job Choice Op Val E α} (hc : Reachable M D c)
    (h : Moves M D c c') : Reachable M D c' := by
  cases h with
  | spawn job hd => exact .spawn job hc hd
  | act env hd => exact .act env hc hd
  | run ht hp hd => exact .run hc ht hp hd

/-- A later configuration of a run. -/
abbrev Leads (M : Machine World Job Env Choice Op Val E α)
    (D : Discipline World Job Env Choice Op Val E α) :
    Config World Job Choice Op Val E α → Config World Job Choice Op Val E α → Prop :=
  Relation.ReflTransGen (Moves M D)

theorem Reachable.leads {c c' : Config World Job Choice Op Val E α} (hc : Reachable M D c)
    (h : Leads M D c c') : Reachable M D c' := by
  induction h with
  | refl => exact hc
  | tail _ hmove ih => exact ih.moves hmove

/-- The checks are all a discipline asks for. -/
structure Discipline.Checked (D : Discipline World Job Env Choice Op Val E α)
    (checks : Checks World Job Env Choice Op Val E α) : Prop where
  spawn : ∀ c job, D.spawn c job
  act : ∀ c env, checks.act c env = true → D.act c env
  run : ∀ c ev, checks.run c ev = true → D.run c ev

section Executions

variable {checks : Checks World Job Env Choice Op Val E α}

/-- One executed step. -/
theorem Moves.of_step (hD : D.Checked checks) {c c' : Config World Job Choice Op Val E α}
    {l : Label Job Env Choice} (h : M.step checks c l = some c') : Moves M D c c' := by
  cases l with
  | spawn job =>
      cases h
      exact .spawn job (hD.spawn c job)
  | act env =>
      simp only [step] at h
      split at h
      case isTrue hact =>
          cases h
          exact .act env (hD.act c env hact)
      case isFalse => cases h
  | run tid choice =>
      simp only [step] at h
      split at h
      case h_1 job op next ht =>
          obtain ⟨⟨w, answer⟩, hp, h⟩ := Option.bind_eq_some_iff.1 h
          by_cases hrun : checks.run c ⟨tid, op, choice, answer⟩ = true
          · simp only [hrun, if_true, Option.some.injEq] at h
            subst h
            exact .run ht hp (hD.run c _ hrun)
          · simp only [if_neg hrun, reduceCtorEq] at h
      case h_2 => cases h

/-- An executed step of a run. -/
theorem Reachable.of_step (hD : D.Checked checks) {c c' : Config World Job Choice Op Val E α}
    {l : Label Job Env Choice} (hc : Reachable M D c) (h : M.step checks c l = some c') :
    Reachable M D c' :=
  hc.moves (.of_step hD h)

/-- An executed schedule leads to its end. -/
theorem Leads.of_run (hD : D.Checked checks) {c c' : Config World Job Choice Op Val E α}
    {ls : List (Label Job Env Choice)} (h : M.run checks c ls = some c') : Leads M D c c' := by
  induction ls generalizing c with
  | nil =>
      cases h
      exact .refl
  | cons l ls ih =>
      obtain ⟨d, hd, h⟩ := Option.bind_eq_some_iff.1 h
      exact (ih h).head (.of_step hD hd)

/-- The discipline admits a label, whatever the step does. -/
def Discipline.Admits (D : Discipline World Job Env Choice Op Val E α)
    (c : Config World Job Choice Op Val E α) : Label Job Env Choice → Prop
  | .spawn job => D.spawn c job
  | .act env => D.act c env
  | .run tid choice => ∀ op answer, D.run c ⟨tid, op, choice, answer⟩

/-- The execution of a schedule whose labels pass a check in turn. -/
def runWhile (M : Machine World Job Env Choice Op Val E α)
    (check : Config World Job Choice Op Val E α → Label Job Env Choice → Bool) :
    Config World Job Choice Op Val E α → List (Label Job Env Choice) →
      Option (Config World Job Choice Op Val E α)
  | c, [] => some c
  | c, l :: ls =>
      if check c l then (M.step {} c l).bind fun c' => M.runWhile check c' ls else none

theorem Moves.of_admits {c c' : Config World Job Choice Op Val E α} {l : Label Job Env Choice}
    (hl : D.Admits c l) (h : M.step {} c l = some c') : Moves M D c c' := by
  cases l with
  | spawn job =>
      cases h
      exact .spawn job hl
  | act env =>
      cases h
      exact .act env hl
  | run tid choice =>
      simp only [step] at h
      split at h
      case h_1 job op next ht =>
          obtain ⟨⟨w, answer⟩, hp, h⟩ := Option.bind_eq_some_iff.1 h
          cases h
          exact .run ht hp (hl op answer)
      case h_2 => cases h

theorem Leads.of_runWhile {check : Config World Job Choice Op Val E α → Label Job Env Choice → Bool}
    (hcheck : ∀ c l, check c l = true → D.Admits c l) {c c' : Config World Job Choice Op Val E α}
    {ls : List (Label Job Env Choice)} (h : M.runWhile check c ls = some c') : Leads M D c c' := by
  induction ls generalizing c with
  | nil =>
      cases h
      exact .refl
  | cons l ls ih =>
      rw [runWhile] at h
      split at h
      case isTrue hl =>
          obtain ⟨d, hd, h⟩ := Option.bind_eq_some_iff.1 h
          exact (ih h).head (.of_admits (hcheck c l hl) hd)
      case isFalse => cases h

/-- The end of an executed schedule is reachable. -/
theorem Reachable.of_run (hD : D.Checked checks) {c c' : Config World Job Choice Op Val E α}
    {ls : List (Label Job Env Choice)} (hc : Reachable M D c) (h : M.run checks c ls = some c') :
    Reachable M D c' :=
  hc.leads (Leads.of_run hD h)

/-- An executed schedule reaches its last configuration, with its decidable properties. -/
theorem Reachable.exists_of_run (hD : D.Checked checks) {w : World} (hw : D.initial w)
    {ls : List (Label Job Env Choice)} {p : Config World Job Choice Op Val E α → Prop}
    [DecidablePred p]
    (h : ((M.run checks { world := w } ls).any fun c => decide (p c)) = true) :
    ∃ c, Reachable M D c ∧ p c := by
  cases hrun : M.run checks { world := w } ls with
  | none =>
      rw [hrun] at h
      cases h
  | some c =>
      rw [hrun] at h
      exact ⟨c, Reachable.of_run hD (.initial hw) hrun, of_decide_eq_true h⟩

end Executions

/-! ## Histories -/

/-- What changes a world: the environment acts, or a thread performs an operation. -/
inductive Deed (Env Choice Op : Type) (Val : Op → Type) (E : Type) where
  | act (env : Env)
  | did (event : Event Choice Op Val E)

/-- The world after one deed; an operation that is not possible changes nothing. -/
def after (M : Machine World Job Env Choice Op Val E α) (w : World) :
    Deed Env Choice Op Val E → World
  | .act env => M.environment w env
  | .did ev => ((M.perform w ev.op ev.choice).map Prod.fst).getD w

/-- A run together with its deeds, oldest first. -/
inductive History (M : Machine World Job Env Choice Op Val E α)
    (D : Discipline World Job Env Choice Op Val E α) (w : World) :
    List (Deed Env Choice Op Val E) → Config World Job Choice Op Val E α → Prop
  | initial (hw : D.initial w) : History M D w [] { world := w }
  | spawn {deeds : List (Deed Env Choice Op Val E)} {c : Config World Job Choice Op Val E α}
      (job : Job) (hc : History M D w deeds c) (hd : D.spawn c job) :
      History M D w deeds (c.spawn M job)
  | act {deeds : List (Deed Env Choice Op Val E)} {c : Config World Job Choice Op Val E α}
      (env : Env) (hc : History M D w deeds c) (hd : D.act c env) :
      History M D w (deeds ++ [.act env]) { c with world := M.environment c.world env }
  | run {deeds : List (Deed Env Choice Op Val E)} {c : Config World Job Choice Op Val E α}
      {tid : ℕ} {job : Job} {op : Op} {next : Except E (Val op) → Prog Op Val E α}
      {choice : Choice} {w' : World} {answer : Except E (Val op)} (hc : History M D w deeds c)
      (ht : c.threads[tid]? = some ⟨job, .call op next⟩)
      (hp : M.perform c.world op choice = some (w', answer))
      (hd : D.run c ⟨tid, op, choice, answer⟩) :
      History M D w (deeds ++ [.did ⟨tid, op, choice, answer⟩])
        (c.advance ⟨job, next answer⟩ w' ⟨tid, op, choice, answer⟩)

section Histories

variable {w : World} {deeds : List (Deed Env Choice Op Val E)}
  {c : Config World Job Choice Op Val E α}

theorem History.reachable (h : History M D w deeds c) : Reachable M D c := by
  induction h with
  | initial hw => exact .initial hw
  | spawn job _ hd ih => exact .spawn job ih hd
  | act env _ hd ih => exact .act env ih hd
  | run _ ht hp hd ih => exact .run ih ht hp hd

/-- Every run has its deeds. -/
theorem Reachable.history (h : Reachable M D c) : ∃ w deeds, History M D w deeds c := by
  induction h with
  | initial hw => exact ⟨_, _, .initial hw⟩
  | spawn job _ hd ih =>
      obtain ⟨w, deeds, hc⟩ := ih
      exact ⟨w, _, .spawn job hc hd⟩
  | act env _ hd ih =>
      obtain ⟨w, deeds, hc⟩ := ih
      exact ⟨w, _, .act env hc hd⟩
  | run _ ht hp hd ih =>
      obtain ⟨w, deeds, hc⟩ := ih
      exact ⟨w, _, .run hc ht hp hd⟩

/-- The deeds make the world of the run. -/
theorem History.world (h : History M D w deeds c) : c.world = deeds.foldl M.after w := by
  induction h with
  | initial _ => rfl
  | spawn job _ _ ih => exact ih
  | act env _ _ ih =>
      rw [List.foldl_append, ← ih]
      rfl
  | run _ _ hp _ ih =>
      rw [List.foldl_append, ← ih, List.foldl_cons, List.foldl_nil, after, hp]
      rfl

/-- Every performed operation was answered in the world the earlier deeds made. -/
theorem History.answer (h : History M D w deeds c) {before rest : List (Deed Env Choice Op Val E)}
    {ev : Event Choice Op Val E} (hdeeds : deeds = before ++ .did ev :: rest) :
    (M.perform (before.foldl M.after w) ev.op ev.choice).map Prod.snd = some ev.answer := by
  -- either the operation is the last deed, or it is a deed of the run before
  have hlast : ∀ {deeds rest : List (Deed Env Choice Op Val E)} {last}, deeds ++ [last] =
      before ++ .did ev :: rest → (deeds = before ∧ last = .did ev) ∨
        ∃ rest', deeds = before ++ .did ev :: rest' := by
    intro deeds rest last heq
    rcases List.eq_nil_or_concat rest with rfl | ⟨rest', last', rfl⟩
    · obtain ⟨hbefore, hev⟩ := List.append_inj' heq rfl
      exact .inl ⟨hbefore, (List.cons.inj hev).1⟩
    · rw [List.concat_eq_append, ← List.cons_append, ← List.append_assoc] at heq
      exact .inr ⟨rest', (List.append_inj' heq rfl).1⟩
  induction h generalizing rest with
  | initial _ => exact absurd hdeeds (by simp)
  | spawn job _ _ ih => exact ih hdeeds
  | act env _ _ ih =>
      rcases hlast hdeeds with ⟨-, hev⟩ | ⟨rest', heq⟩
      · cases hev
      · exact ih heq
  | run hc _ hp _ ih =>
      rcases hlast hdeeds with ⟨rfl, hev⟩ | ⟨rest', heq⟩
      · cases hev
        rw [← hc.world, hp]
        rfl
      · exact ih heq

/-- The deeds of the execution of a schedule. -/
def deedsOf (M : Machine World Job Env Choice Op Val E α)
    (checks : Checks World Job Env Choice Op Val E α) :
    Config World Job Choice Op Val E α → List (Label Job Env Choice) →
      List (Deed Env Choice Op Val E)
  | _, [] => []
  | c, l :: ls => match M.step checks c l with
    | none => []
    | some c' => (match l with
        | .spawn _ => []
        | .act env => [.act env]
        | .run _ _ => (c'.log.head?.map Deed.did).toList) ++ M.deedsOf checks c' ls

/-- An executed schedule is a run with its deeds. -/
theorem History.of_run {checks : Checks World Job Env Choice Op Val E α} (hD : D.Checked checks)
    {c' : Config World Job Choice Op Val E α} {ls : List (Label Job Env Choice)}
    (hc : History M D w deeds c) (h : M.run checks c ls = some c') :
    History M D w (deeds ++ M.deedsOf checks c ls) c' := by
  induction ls generalizing c deeds with
  | nil =>
      cases h
      rwa [Machine.deedsOf, List.append_nil]
  | cons l ls ih =>
      obtain ⟨d, hd, h⟩ := Option.bind_eq_some_iff.1 h
      rw [Machine.deedsOf, hd]
      simp only
      rw [← List.append_assoc]
      refine ih ?_ h
      cases l with
      | spawn job =>
          cases hd
          rw [List.append_nil]
          exact .spawn job hc (hD.spawn c job)
      | act env =>
          simp only [step] at hd
          split at hd
          case isTrue hact =>
              cases hd
              exact .act env hc (hD.act c env hact)
          case isFalse => cases hd
      | run tid choice =>
          simp only [step] at hd
          split at hd
          case h_1 job op next ht =>
              obtain ⟨⟨w', answer⟩, hp, hd⟩ := Option.bind_eq_some_iff.1 hd
              by_cases hrun : checks.run c ⟨tid, op, choice, answer⟩ = true
              · simp only [hrun, if_true, Option.some.injEq] at hd
                subst hd
                exact .run hc ht hp (hD.run c _ hrun)
              · simp only [if_neg hrun, reduceCtorEq] at hd
          case h_2 => cases hd

/-- The jobs of the threads are those that were started. -/
theorem jobs_of_run {checks : Checks World Job Env Choice Op Val E α}
    {c' : Config World Job Choice Op Val E α} {ls : List (Label Job Env Choice)}
    (h : M.run checks c ls = some c') : c'.threads.map Thread.job =
      c.threads.map Thread.job ++ ls.filterMap fun
        | .spawn job => some job
        | _ => none := by
  induction ls generalizing c with
  | nil =>
      cases h
      rw [List.filterMap_nil, List.append_nil]
  | cons l ls ih =>
      obtain ⟨d, hd, h⟩ := Option.bind_eq_some_iff.1 h
      rw [ih h]
      cases l with
      | spawn job =>
          cases hd
          simp [Config.spawn]
      | act env =>
          simp only [step] at hd
          split at hd
          · cases hd
            rfl
          · cases hd
      | run tid choice =>
          simp only [step] at hd
          split at hd
          case h_1 job op next ht =>
              obtain ⟨⟨w', answer⟩, hp, hd⟩ := Option.bind_eq_some_iff.1 hd
              split at hd
              · cases hd
                obtain ⟨hlt, hget⟩ := List.getElem?_eq_some_iff.1 ht
                rw [Config.advance, List.map_set, List.filterMap_cons]
                congr 1
                refine List.ext_getElem? fun t => ?_
                by_cases hne : tid = t
                · subst hne
                  rw [List.getElem?_set_self (by simpa using hlt), List.getElem?_map, ht]
                  rfl
                · rw [List.getElem?_set_ne hne]
              · cases hd
          case h_2 => cases hd

end Histories

/-! ## Sessions -/

section Sessions

variable (P : Protocol Op Val E S) (init : Job → S)

/-- The session a log leads a thread to. -/
def replay (s : S) (tid : ℕ) : List (Event Choice Op Val E) → S
  | [] => s
  | ev :: log => if ev.tid = tid then P.next (replay s tid log) ev.op ev.answer
      else replay s tid log

/-- The session of a thread of a configuration. -/
def Config.session (c : Config World Job Choice Op Val E α) (tid : ℕ) : Option S :=
  c.threads[tid]?.map fun thread => replay P (init thread.job) tid c.log

/-- Events belong to threads that were started. -/
def Config.Proper (c : Config World Job Choice Op Val E α) : Prop :=
  ∀ ev ∈ c.log, ev.tid < c.threads.length

theorem Reachable.proper {c : Config World Job Choice Op Val E α} (hc : Reachable M D c) :
    c.Proper := by
  induction hc with
  | initial _ => exact fun ev hev => absurd hev List.not_mem_nil
  | spawn job _ _ ih =>
      intro ev hev
      rw [Config.spawn, List.length_append]
      exact Nat.lt_add_right _ (ih ev hev)
  | act env _ _ ih => exact ih
  | run _ ht _ _ ih =>
      intro ev hev
      rw [Config.advance, List.length_set]
      rcases List.mem_cons.1 hev with rfl | hev
      · exact (List.getElem?_eq_some_iff.1 ht).1
      · exact ih ev hev

theorem replay_eq_of_not_mem {s : S} {tid : ℕ} {log : List (Event Choice Op Val E)}
    (h : ∀ ev ∈ log, ev.tid ≠ tid) : replay P s tid log = s := by
  induction log with
  | nil => rfl
  | cons ev log ih =>
      rw [replay, if_neg (h ev List.mem_cons_self)]
      exact ih fun ev' hev' => h ev' (List.mem_cons_of_mem _ hev')

theorem session_spawn {c : Config World Job Choice Op Val E α} (hc : c.Proper) (job : Job) :
    (c.spawn M job).session P init =
      Function.update (c.session P init) c.threads.length (some (init job)) := by
  funext tid
  unfold Config.session Config.spawn
  rcases Nat.lt_trichotomy tid c.threads.length with h | rfl | h
  · rw [List.getElem?_append_left h, Function.update_of_ne h.ne]
  · rw [Function.update_self, List.getElem?_append_right le_rfl]
    simp only [Nat.sub_self, List.getElem?_cons_zero, Option.map_some, Option.some.injEq]
    exact replay_eq_of_not_mem P fun ev hev => (hc ev hev).ne
  · rw [Function.update_of_ne h.ne', List.getElem?_eq_none (by simp; omega),
      List.getElem?_eq_none (by omega)]

theorem session_advance {c : Config World Job Choice Op Val E α} {tid : ℕ} {job : Job} {op : Op}
    {prog prog' : Prog Op Val E α} {choice : Choice} {w : World} {answer : Except E (Val op)}
    {s : S} (ht : c.threads[tid]? = some ⟨job, prog⟩) (hs : c.session P init tid = some s) :
    (c.advance ⟨job, prog'⟩ w ⟨tid, op, choice, answer⟩).session P init =
      Function.update (c.session P init) tid (some (P.next s op answer)) := by
  have hlt : tid < c.threads.length := (List.getElem?_eq_some_iff.1 ht).1
  simp only [Config.session, ht, Option.map_some, Option.some.injEq] at hs
  funext t
  unfold Config.session Config.advance
  by_cases h : t = tid
  · subst h
    simp only [List.getElem?_set_self hlt, Option.map_some, Function.update_self, replay, if_true,
      hs]
  · simp only [List.getElem?_set_ne (Ne.symm h), Function.update_of_ne h, replay,
      if_neg (Ne.symm h)]

/-- Every thread of a reachable configuration follows the protocol from its present session. -/
theorem Reachable.follows {Post : Job → Except E α → S → Prop}
    (hstart : ∀ job, (M.start job).Follows P (init job) (Post job))
    {c : Config World Job Choice Op Val E α} (hc : Reachable M D c) {tid : ℕ}
    {thread : Thread Job Op Val E α} (ht : c.threads[tid]? = some thread) :
    ∃ s, c.session P init tid = some s ∧ thread.prog.Follows P s (Post thread.job) := by
  induction hc generalizing tid thread with
  | initial _ => cases ht
  | @spawn c job hc _ ih =>
      rw [session_spawn P init hc.proper]
      unfold Config.spawn at ht
      rcases Nat.lt_trichotomy tid c.threads.length with h | rfl | h
      · rw [List.getElem?_append_left h] at ht
        rw [Function.update_of_ne h.ne]
        exact ih ht
      · rw [List.getElem?_append_right le_rfl] at ht
        simp only [Nat.sub_self, List.getElem?_cons_zero, Option.some.injEq] at ht
        subst ht
        exact ⟨_, Function.update_self .., hstart job⟩
      · rw [List.getElem?_eq_none (by simp; omega)] at ht
        cases ht
  | act env _ _ ih => exact ih ht
  | @run c tid₀ job op next choice w answer hc ht₀ hp _ ih =>
      obtain ⟨s₀, hs₀, hf₀⟩ := ih ht₀
      rw [session_advance P init ht₀ hs₀]
      unfold Config.advance at ht
      by_cases h : tid = tid₀
      · subst h
        rw [List.getElem?_set_self (List.getElem?_eq_some_iff.1 ht₀).1, Option.some.injEq] at ht
        subst ht
        exact ⟨_, Function.update_self .., hf₀.2 answer⟩
      · rw [List.getElem?_set_ne (Ne.symm h)] at ht
        rw [Function.update_of_ne h]
        exact ih ht

/-- What is known when a thread performs an operation: its session permits it. -/
structure Performs (M : Machine World Job Env Choice Op Val E α)
    (D : Discipline World Job Env Choice Op Val E α) (P : Protocol Op Val E S) (init : Job → S)
    (c : Config World Job Choice Op Val E α) (tid : ℕ) (s : S) (op : Op) (choice : Choice)
    (w : World) (answer : Except E (Val op)) : Prop where
  session : c.session P init tid = some s
  guard : P.guard s op
  perform : M.perform c.world op choice = some (w, answer)
  discipline : D.run c ⟨tid, op, choice, answer⟩
  running : ∃ job next, c.threads[tid]? = some ⟨job, .call op next⟩

/-- The invariant rule. Configurations are compared through their world, sessions, threads and log;
a step of a thread comes with the facts of `Performs`. -/
theorem Reachable.invariant {Post : Job → Except E α → S → Prop}
    (hstart : ∀ job, (M.start job).Follows P (init job) (Post job))
    {I : Config World Job Choice Op Val E α → Prop}
    (hinit : ∀ w, D.initial w → I { world := w })
    (hspawn : ∀ c job, Reachable M D c → I c → D.spawn c job →
      (c.spawn M job).session P init =
        Function.update (c.session P init) c.threads.length (some (init job)) →
      I (c.spawn M job))
    (hact : ∀ c env, Reachable M D c → I c → D.act c env →
      I { c with world := M.environment c.world env })
    (hrun : ∀ c tid s job op (next : Except E (Val op) → Prog Op Val E α) choice w
      (answer : Except E (Val op)), Reachable M D c → I c →
      c.threads[tid]? = some ⟨job, .call op next⟩ →
      Performs M D P init c tid s op choice w answer →
      (c.advance ⟨job, next answer⟩ w ⟨tid, op, choice, answer⟩).session P init =
        Function.update (c.session P init) tid (some (P.next s op answer)) →
      I (c.advance ⟨job, next answer⟩ w ⟨tid, op, choice, answer⟩))
    {c : Config World Job Choice Op Val E α} (hc : Reachable M D c) : I c := by
  induction hc with
  | initial hw => exact hinit _ hw
  | spawn job hc hd ih => exact hspawn _ job hc ih hd (session_spawn P init hc.proper job)
  | act env hc hd ih => exact hact _ env hc ih hd
  | @run c tid job op next choice w answer hc ht hp hd ih =>
      obtain ⟨s, hs, hf⟩ := hc.follows P init hstart ht
      exact hrun c tid s job op next choice w answer hc ih ht ⟨hs, hf.1, hp, hd, job, next, ht⟩
        (session_advance P init ht hs)

/-- The invariant rule for one thread: what holds of the world and of the session of any thread. A
thread keeps it when it performs an operation itself, and when another one does. -/
theorem Reachable.thread_invariant {Post : Job → Except E α → S → Prop}
    (hstart : ∀ job, (M.start job).Follows P (init job) (Post job)) {I : World → S → Prop}
    (hspawn : ∀ c job, Reachable M D c → I c.world (init job))
    (hact : ∀ c env s, Reachable M D c → D.act c env → I c.world s →
      I (M.environment c.world env) s)
    (hself : ∀ c tid s op choice w (answer : Except E (Val op)), Reachable M D c →
      Performs M D P init c tid s op choice w answer → I c.world s → I w (P.next s op answer))
    (hother : ∀ c tid s op choice w (answer : Except E (Val op)) tid' s', Reachable M D c →
      Performs M D P init c tid s op choice w answer → tid' ≠ tid →
      c.session P init tid' = some s' → I c.world s' → I w s')
    {c : Config World Job Choice Op Val E α} (hc : Reachable M D c) {tid : ℕ} {s : S}
    (hs : c.session P init tid = some s) : I c.world s := by
  have hall : ∀ t s, c.session P init t = some s → I c.world s := by
    refine Reachable.invariant P init hstart (I := fun c => ∀ t s, c.session P init t = some s →
      I c.world s) ?_ ?_ ?_ ?_ hc
    · exact fun w _ t s hs => nomatch hs
    · intro c job hc ih _ heq t s hs
      rw [heq, Function.update_apply] at hs
      split at hs
      · cases hs
        exact hspawn c job hc
      · exact ih t s hs
    · exact fun c env hc ih hd t s hs => hact c env s hc hd (ih t s hs)
    · intro c tid s job op next choice w answer hc ih _ hp heq t s' hs'
      rw [heq, Function.update_apply] at hs'
      split at hs'
      · cases hs'
        exact hself c tid s op choice w answer hc hp (ih tid s hp.session)
      · rename_i hne
        exact hother c tid s op choice w answer t s' hc hp hne hs' (ih t s' hs')
  exact hall tid s hs

/-- The invariant rule for two threads: what holds of the world and of the sessions of any two
different threads, in either order. -/
theorem Reachable.pair_invariant {Post : Job → Except E α → S → Prop}
    (hstart : ∀ job, (M.start job).Follows P (init job) (Post job)) {I : World → S → S → Prop}
    (hsymm : ∀ w s s', I w s s' → I w s' s)
    (hspawn : ∀ c job tid s, Reachable M D c → c.session P init tid = some s →
      I c.world s (init job))
    (hact : ∀ c env s s', Reachable M D c → D.act c env → I c.world s s' →
      I (M.environment c.world env) s s')
    (hself : ∀ c tid s op choice w (answer : Except E (Val op)) tid' s', Reachable M D c →
      Performs M D P init c tid s op choice w answer → tid' ≠ tid →
      c.session P init tid' = some s' → I c.world s s' → I w (P.next s op answer) s')
    (hother : ∀ c tid s op choice w (answer : Except E (Val op)) s' s'', Reachable M D c →
      Performs M D P init c tid s op choice w answer → I c.world s' s'' → I w s' s'')
    {c : Config World Job Choice Op Val E α} (hc : Reachable M D c) {tid tid' : ℕ} {s s' : S}
    (hne : tid ≠ tid') (hs : c.session P init tid = some s)
    (hs' : c.session P init tid' = some s') : I c.world s s' := by
  have hall : ∀ t t' s s', t ≠ t' → c.session P init t = some s →
      c.session P init t' = some s' → I c.world s s' := by
    refine Reachable.invariant P init hstart (I := fun c => ∀ t t' s s', t ≠ t' →
      c.session P init t = some s → c.session P init t' = some s' → I c.world s s') ?_ ?_ ?_ ?_ hc
    · exact fun w _ t t' s s' _ hs => nomatch hs
    · intro c job hc ih _ heq t t' s s' hne hs hs'
      rw [heq, Function.update_apply] at hs hs'
      split at hs <;> split at hs'
      · rename_i h h'
        exact absurd (h.trans h'.symm) hne
      · cases hs
        exact hsymm _ _ _ (hspawn c job t' s' hc hs')
      · cases hs'
        exact hspawn c job t s hc hs
      · exact ih t t' s s' hne hs hs'
    · exact fun c env hc ih hd t t' s s' hne hs hs' => hact c env s s' hc hd (ih t t' s s' hne hs hs')
    · intro c tid s₀ job op next choice w answer hc ih _ hp heq t t' s s' hne hs hs'
      rw [heq, Function.update_apply] at hs hs'
      split at hs <;> split at hs'
      · rename_i h h'
        exact absurd (h.trans h'.symm) hne
      · rename_i h h'
        cases hs
        exact hself c tid s₀ op choice w answer t' s' hc hp h' hs'
          (ih tid t' s₀ s' (Ne.symm h') hp.session hs')
      · rename_i h h'
        cases hs'
        exact hsymm _ _ _ (hself c tid s₀ op choice w answer t s hc hp h hs
          (ih tid t s₀ s (Ne.symm h) hp.session hs))
      · exact hother c tid s₀ op choice w answer s s' hc hp (ih t t' s s' hne hs hs')
  exact hall tid tid' s s' hne hs hs'

/-- The postcondition of a thread that has ended. -/
theorem Reachable.post {Post : Job → Except E α → S → Prop}
    (hstart : ∀ job, (M.start job).Follows P (init job) (Post job))
    {c : Config World Job Choice Op Val E α} (hc : Reachable M D c) {tid : ℕ} {job : Job}
    {r : Except E α} (ht : c.threads[tid]? = some ⟨job, .ret r⟩) :
    ∃ s, c.session P init tid = some s ∧ Post job r s :=
  hc.follows P init hstart ht

/-- A protocol without memory permits every deed in the session its job started with. -/
theorem History.guarded {w : World} {deeds : List (Deed Env Choice Op Val E)}
    {c : Config World Job Choice Op Val E α} (hmemory : ∀ s op answer, P.next s op answer = s)
    {Post : Job → Except E α → S → Prop}
    (hstart : ∀ job, (M.start job).Follows P (init job) (Post job)) (h : History M D w deeds c)
    {ev : Event Choice Op Val E} (hev : .did ev ∈ deeds) :
    ∃ thread, c.threads[ev.tid]? = some thread ∧ P.guard (init thread.job) ev.op := by
  have hreplay : ∀ (s : S) tid (log : List (Event Choice Op Val E)), replay P s tid log = s := by
    intro s tid log
    induction log with
    | nil => rfl
    | cons ev log ih =>
        rw [replay]
        split
        · rw [hmemory, ih]
        · exact ih
  induction h with
  | initial _ => cases hev
  | spawn job _ _ ih =>
      obtain ⟨thread, ht, hguard⟩ := ih hev
      refine ⟨thread, ?_, hguard⟩
      rw [Config.spawn, List.getElem?_append_left (List.getElem?_eq_some_iff.1 ht).1, ht]
  | act env _ _ ih =>
      refine ih ?_
      rcases List.mem_append.1 hev with hev | hev
      · exact hev
      · cases List.mem_singleton.1 hev
  | @run deeds c tid job op next choice w' answer hc ht hp hd ih =>
      have hkept : ∀ {t : ℕ} {thread : Thread Job Op Val E α}, c.threads[t]? = some thread →
          ∃ thread', (c.advance ⟨job, next answer⟩ w' ⟨tid, op, choice, answer⟩).threads[t]? =
            some thread' ∧ thread'.job = thread.job := by
        intro t thread htt
        rw [Config.advance]
        by_cases hne : tid = t
        · subst hne
          rw [ht, Option.some.injEq] at htt
          subst htt
          exact ⟨_, List.getElem?_set_self (List.getElem?_eq_some_iff.1 ht).1, rfl⟩
        · exact ⟨thread, by rw [List.getElem?_set_ne hne, htt], rfl⟩
      rcases List.mem_append.1 hev with hev | hev
      · obtain ⟨thread, htt, hguard⟩ := ih hev
        obtain ⟨thread', ht', hjob⟩ := hkept htt
        exact ⟨thread', ht', hjob ▸ hguard⟩
      · cases List.mem_singleton.1 hev
        obtain ⟨s, hs, hf⟩ := hc.reachable.follows P init hstart ht
        obtain ⟨thread', ht', hjob⟩ := hkept ht
        refine ⟨thread', ht', ?_⟩
        rw [Config.session, ht, Option.map_some, hreplay, Option.some.injEq] at hs
        rw [hjob, hs]
        exact hf.1

end Sessions

end Machine

end AgentPay.Library
