import Mathlib

/-!
# Rules over partly undefined documents

The evaluation of a Rego-style rule set. The value of an expression is an `Option`: `none` is an
undefined reference. A body succeeds when each of its expressions is defined and not `false`, and
negation succeeds when its expression does not. A partial set rule contributes its head when its
body succeeds; a complete rule takes the common value of its succeeding clauses, falls back to its
default when there is none, and has no value when two clauses conflict.
-/

set_option autoImplicit false

namespace AgentPay.Library.Rego

universe u v

variable {α : Type u} {β : Type v}

/-! ## Expressions -/

/-- An expression of a body succeeds when it is defined and not `false`. -/
def holds (e : Option Bool) : Bool := e == some true

/-- `not e`: defined, and true, exactly when `e` does not succeed. -/
def negate (e : Option Bool) : Option Bool := if holds e then none else some true

/-- A comparison of two references, undefined when one of them is. -/
def compare (r : α → α → Bool) (a b : Option α) : Option Bool :=
  match a, b with
  | some x, some y => some (r x y)
  | _, _ => none

/-- `a == b`. -/
def equal [DecidableEq α] : Option α → Option α → Option Bool := compare fun x y => decide (x = y)

/-- `a != b`. -/
def unequal [DecidableEq α] : Option α → Option α → Option Bool := compare fun x y => decide (x ≠ y)

/-- `a < b`. -/
def less [LT α] [DecidableLT α] : Option α → Option α → Option Bool := compare fun x y => decide (x < y)

/-- `a >= b`. -/
def atLeast [LE α] [DecidableLE α] : Option α → Option α → Option Bool :=
  compare fun x y => decide (y ≤ x)

/-- `x in xs`. -/
def isIn [DecidableEq α] (x : Option α) (xs : Option (List α)) : Option Bool :=
  match x, xs with
  | some a, some as => some (decide (a ∈ as))
  | _, _ => none

/-- `count(xs)`. -/
def count (xs : Option (List α)) : Option ℕ := xs.map List.length

/-- `a + b`. -/
def plus (a b : Option ℤ) : Option ℤ := a.bind fun x => b.map (x + ·)

/-- `a / b`, undefined when the divisor is zero. -/
def quotient (a b : Option ℤ) : Option ℚ :=
  match a, b with
  | some x, some y => if y = 0 then none else some (x / y)
  | _, _ => none

@[simp] theorem holds_some (b : Bool) : holds (some b) = b := by cases b <;> rfl
@[simp] theorem holds_none : holds none = false := rfl
@[simp] theorem holds_negate (e : Option Bool) : holds (negate e) = !holds e := by
  unfold negate
  cases h : holds e <;> simp
@[simp] theorem holds_equal [DecidableEq α] (x y : α) :
    holds (equal (some x) (some y)) = decide (x = y) := by simp [equal, compare]
@[simp] theorem holds_unequal [DecidableEq α] (x y : α) :
    holds (unequal (some x) (some y)) = decide (x ≠ y) := by simp [unequal, compare]
@[simp] theorem holds_less [LT α] [DecidableLT α] (x y : α) :
    holds (less (some x) (some y)) = decide (x < y) := by simp [less, compare]
@[simp] theorem holds_atLeast [LE α] [DecidableLE α] (x y : α) :
    holds (atLeast (some x) (some y)) = decide (y ≤ x) := by simp [atLeast, compare]
@[simp] theorem holds_isIn [DecidableEq α] (x : α) (xs : List α) :
    holds (isIn (some x) (some xs)) = decide (x ∈ xs) := by simp [isIn]

@[simp] theorem count_some (xs : List α) : count (some xs) = some xs.length := rfl
@[simp] theorem plus_some (x y : ℤ) : plus (some x) (some y) = some (x + y) := rfl

/-! ## References that may be missing -/

/-- A reference that is there under a condition. -/
def given (p : Prop) [Decidable p] (a : Option α) : Option α := if p then a else none

section Given

variable {p : Prop} [Decidable p]

@[simp] theorem given_none : given p (none : Option α) = none := by simp [given]
@[simp] theorem given_true (a : Option α) : given True a = a := rfl
@[simp] theorem holds_given (e : Option Bool) : holds (given p e) = (decide p && holds e) := by
  by_cases h : p <;> simp [given, h]
@[simp] theorem isSome_given (a : Option α) : (given p a).isSome = (decide p && a.isSome) := by
  by_cases h : p <;> simp [given, h]
@[simp] theorem map_given (f : α → β) (a : Option α) : (given p a).map f = given p (a.map f) := by
  by_cases h : p <;> simp [given, h]
@[simp] theorem compare_given_left (r : α → α → Bool) (a b : Option α) :
    compare r (given p a) b = given p (compare r a b) := by
  by_cases h : p <;> simp [given, h, compare]
@[simp] theorem compare_given_right (r : α → α → Bool) (a b : Option α) :
    compare r a (given p b) = given p (compare r a b) := by
  by_cases h : p <;> cases a <;> simp [given, h, compare]
@[simp] theorem equal_given_left [DecidableEq α] (a b : Option α) :
    equal (given p a) b = given p (equal a b) := compare_given_left _ a b
@[simp] theorem equal_given_right [DecidableEq α] (a b : Option α) :
    equal a (given p b) = given p (equal a b) := compare_given_right _ a b
@[simp] theorem unequal_given_left [DecidableEq α] (a b : Option α) :
    unequal (given p a) b = given p (unequal a b) := compare_given_left _ a b
@[simp] theorem unequal_given_right [DecidableEq α] (a b : Option α) :
    unequal a (given p b) = given p (unequal a b) := compare_given_right _ a b
@[simp] theorem less_given_left [LT α] [DecidableLT α] (a b : Option α) :
    less (given p a) b = given p (less a b) := compare_given_left _ a b
@[simp] theorem less_given_right [LT α] [DecidableLT α] (a b : Option α) :
    less a (given p b) = given p (less a b) := compare_given_right _ a b
@[simp] theorem atLeast_given_left [LE α] [DecidableLE α] (a b : Option α) :
    atLeast (given p a) b = given p (atLeast a b) := compare_given_left _ a b
@[simp] theorem atLeast_given_right [LE α] [DecidableLE α] (a b : Option α) :
    atLeast a (given p b) = given p (atLeast a b) := compare_given_right _ a b
@[simp] theorem isIn_given_left [DecidableEq α] (x : Option α) (xs : Option (List α)) :
    isIn (given p x) xs = given p (isIn x xs) := by
  by_cases h : p <;> simp [given, h, isIn]
@[simp] theorem isIn_given_right [DecidableEq α] (x : Option α) (xs : Option (List α)) :
    isIn x (given p xs) = given p (isIn x xs) := by
  by_cases h : p <;> cases x <;> simp [given, h, isIn]
@[simp] theorem count_given (xs : Option (List α)) : count (given p xs) = given p (count xs) := by
  by_cases h : p <;> simp [given, h, count]
@[simp] theorem plus_given_left (a b : Option ℤ) : plus (given p a) b = given p (plus a b) := by
  by_cases h : p <;> simp [given, h, plus]
@[simp] theorem plus_given_right (a b : Option ℤ) : plus a (given p b) = given p (plus a b) := by
  by_cases h : p <;> cases a <;> simp [given, h, plus]
@[simp] theorem quotient_given_left (a b : Option ℤ) :
    quotient (given p a) b = given p (quotient a b) := by
  by_cases h : p <;> simp [given, h, quotient]
@[simp] theorem quotient_given_right (a b : Option ℤ) :
    quotient a (given p b) = given p (quotient a b) := by
  by_cases h : p <;> cases a <;> simp [given, h, quotient]

end Given

/-! ## Rules -/

/-- A rule: the value of its head and the expressions of its body. -/
structure Rule (α : Type u) where
  head : α
  body : List (Option Bool)

/-- The body of a rule succeeds. -/
def Rule.fires (r : Rule α) : Bool := r.body.all holds

@[simp] theorem fires_mk (a : α) (es : List (Option Bool)) :
    (Rule.mk a es).fires = es.all holds := rfl

/-- The set a partial rule defines. -/
def partialSet [DecidableEq α] (rules : List (Rule α)) : List α :=
  ((rules.filter Rule.fires).map Rule.head).dedup

/-- Union of sets. -/
def union [DecidableEq α] (sets : List (List α)) : List α := sets.flatten.dedup

/-- A complete rule with a default. Conflicting clauses leave it without a value. -/
def completeRule [DecidableEq α] (default : Option α) (clauses : List (Rule α)) : Option α :=
  match partialSet clauses with
  | [] => default
  | [a] => some a
  | _ :: _ :: _ => none

section Sets

variable [DecidableEq α]

theorem mem_partialSet {rules : List (Rule α)} {a : α} :
    a ∈ partialSet rules ↔ ∃ r ∈ rules, r.fires = true ∧ r.head = a := by
  simp only [partialSet, List.mem_dedup, List.mem_map, List.mem_filter, and_assoc]

theorem partialSet_eq_nil {rules : List (Rule α)} :
    partialSet rules = [] ↔ ∀ r ∈ rules, r.fires = false := by
  rw [List.eq_nil_iff_forall_not_mem]
  constructor
  · intro h r hr
    by_contra hf
    exact h r.head (mem_partialSet.2 ⟨r, hr, by simpa using hf, rfl⟩)
  · intro h a ha
    obtain ⟨r, hr, hf, -⟩ := mem_partialSet.1 ha
    rw [h r hr] at hf
    exact Bool.false_ne_true hf

theorem partialSet_ne_nil {rules : List (Rule α)} :
    partialSet rules ≠ [] ↔ ∃ r ∈ rules, r.fires = true := by
  simp only [ne_eq, partialSet_eq_nil, not_forall, Bool.not_eq_false, exists_prop]

theorem mem_union {sets : List (List α)} {a : α} : a ∈ union sets ↔ ∃ s ∈ sets, a ∈ s := by
  simp only [union, List.mem_dedup, List.mem_flatten]

theorem union_eq_nil {sets : List (List α)} : union sets = [] ↔ ∀ s ∈ sets, s = [] := by
  rw [List.eq_nil_iff_forall_not_mem]
  constructor
  · intro h s hs
    rw [List.eq_nil_iff_forall_not_mem]
    exact fun a ha => h a (mem_union.2 ⟨s, hs, ha⟩)
  · intro h a ha
    obtain ⟨s, hs, has⟩ := mem_union.1 ha
    rw [h s hs] at has
    exact List.not_mem_nil has

theorem union_ne_nil {sets : List (List α)} : union sets ≠ [] ↔ ∃ s ∈ sets, s ≠ [] := by
  simp only [ne_eq, union_eq_nil, not_forall, exists_prop]

/-- A complete rule has the value of a succeeding clause with which no other succeeding clause
disagrees. -/
theorem completeRule_of_fires {default : Option α} {clauses : List (Rule α)} {r : Rule α}
    (hr : r ∈ clauses) (hf : r.fires = true)
    (huniq : ∀ s ∈ clauses, s.fires = true → s.head = r.head) :
    completeRule default clauses = some r.head := by
  have hmem : r.head ∈ partialSet clauses := mem_partialSet.2 ⟨r, hr, hf, rfl⟩
  have hall : ∀ a ∈ partialSet clauses, a = r.head := by
    intro a ha
    obtain ⟨s, hs, hsf, rfl⟩ := mem_partialSet.1 ha
    exact huniq s hs hsf
  have hnodup : (partialSet clauses).Nodup := List.nodup_dedup _
  unfold completeRule
  match hp : partialSet clauses with
  | [] => simp [hp] at hmem
  | [a] => rw [hp] at hall; rw [hall a List.mem_cons_self]
  | a :: b :: l =>
      -- two members of a set all of whose members are equal
      rw [hp] at hall hnodup
      have hab : a = b := by
        rw [hall a List.mem_cons_self, hall b (List.mem_cons_of_mem _ List.mem_cons_self)]
      exact absurd (hab ▸ List.mem_cons_self) (List.nodup_cons.1 hnodup).1

/-- A complete rule none of whose clauses succeeds has its default. -/
theorem completeRule_of_not_fires {default : Option α} {clauses : List (Rule α)}
    (h : ∀ r ∈ clauses, r.fires = false) : completeRule default clauses = default := by
  unfold completeRule
  rw [partialSet_eq_nil.2 h]

/-- A rule without a default succeeds as an expression exactly when its body does. -/
@[simp] theorem holds_completeRule (es : List (Option Bool)) :
    holds (completeRule none [⟨true, es⟩]) = es.all holds := by
  cases h : es.all holds with
  | true =>
      rw [completeRule_of_fires (r := ⟨true, es⟩) List.mem_cons_self h (by simp)]
      rfl
  | false =>
      rw [completeRule_of_not_fires (by simpa using h)]
      rfl

end Sets

end AgentPay.Library.Rego
