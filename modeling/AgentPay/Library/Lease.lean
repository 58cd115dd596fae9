import Mathlib

/-!
# Stores of leases

A store that grants a key to the first value that asks for it and takes it back when the lease runs
out. What an operation does is stated about the leases from its instant on, so a store may drop an
expired entry whenever it likes.
-/

set_option autoImplicit false

namespace AgentPay.Library

/-- A store of leases: the value that holds a key at an instant, the conditional acquisition for a
time, and the release by the holder. -/
structure LeaseStore (S Key Value : Type) where
  lease : S → ℕ → Key → Option Value
  setNx : S → ℕ → Key → Value → ℕ → S × Bool
  deleteIfValue : S → ℕ → Key → Value → S × Bool
  /-- A key that is taken is refused, and nothing changes. -/
  setNx_taken : ∀ s now key v ttl, lease s now key ≠ none →
    (setNx s now key v ttl).2 = false ∧
      ∀ now' k, now ≤ now' → lease (setNx s now key v ttl).1 now' k = lease s now' k
  /-- A free key is granted for the time. -/
  setNx_free : ∀ s now key v ttl, lease s now key = none →
    (setNx s now key v ttl).2 = true ∧
      (∀ now', now ≤ now' → now' < now + ttl →
        lease (setNx s now key v ttl).1 now' key = some v) ∧
      ∀ now' k, now ≤ now' → k ≠ key → lease (setNx s now key v ttl).1 now' k = lease s now' k
  /-- The release concerns its own key only. -/
  delete_elsewhere : ∀ s now key v now' k, now ≤ now' → k ≠ key →
    lease (deleteIfValue s now key v).1 now' k = lease s now' k
  /-- A release by another value changes nothing. -/
  delete_other : ∀ s now key v, lease s now key ≠ some v →
    ∀ now', now ≤ now' → lease (deleteIfValue s now key v).1 now' key = lease s now' key

namespace LeaseStore

variable {S Key Value : Type} (L : LeaseStore S Key Value)

/-- The value holds the key until an instant. -/
def Holds (s : S) (now : ℕ) (key : Key) (v : Value) (expiry : ℕ) : Prop :=
  ∀ now', now ≤ now' → now' < expiry → L.lease s now' key = some v

variable {L} {s : S} {now : ℕ} {key : Key} {v : Value} {expiry : ℕ}

theorem Holds.later {now' : ℕ} (h : L.Holds s now key v expiry) (hle : now ≤ now') :
    L.Holds s now' key v expiry :=
  fun t ht hlt => h t (hle.trans ht) hlt

/-- An acquisition of the key by another value does not disturb a lease that has not run out. -/
theorem Holds.setNx (h : L.Holds s now key v expiry) (hnow : now < expiry) (key' : Key)
    (v' : Value) (ttl : ℕ) : L.Holds (L.setNx s now key' v' ttl).1 now key v expiry := by
  intro t ht hlt
  by_cases hfree : L.lease s now key' = none
  · have hne : key ≠ key' := by
      rintro rfl
      rw [h now le_rfl hnow] at hfree
      cases hfree
    rw [(L.setNx_free s now key' v' ttl hfree).2.2 t key ht hne]
    exact h t ht hlt
  · rw [(L.setNx_taken s now key' v' ttl hfree).2 t key ht]
    exact h t ht hlt

/-- A release by another value does not disturb a lease. -/
theorem Holds.delete (h : L.Holds s now key v expiry) {key' : Key} {v' : Value} (hne : v ≠ v') :
    L.Holds (L.deleteIfValue s now key' v').1 now key v expiry := by
  intro t ht hlt
  by_cases hkey : key = key'
  · subst hkey
    rw [L.delete_other s now key v' ?_ t ht]
    · exact h t ht hlt
    · rw [h now le_rfl (ht.trans_lt hlt), Ne, Option.some.injEq]
      exact hne
  · rw [L.delete_elsewhere s now key' v' t key ht hkey]
    exact h t ht hlt

/-- Two values do not hold a key at one instant. -/
theorem Holds.unique {v' : Value} {expiry' : ℕ} (h : L.Holds s now key v expiry)
    (h' : L.Holds s now key v' expiry') (hlt : now < expiry) (hlt' : now < expiry') : v = v' :=
  Option.some.inj ((h now le_rfl hlt).symm.trans (h' now le_rfl hlt'))

end LeaseStore

end AgentPay.Library
