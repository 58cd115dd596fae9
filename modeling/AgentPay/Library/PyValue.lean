import Mathlib

/-!
# Parsed JSON values of a Python program

What `json.loads` makes of a text, with the floats that are no numbers, and the ways a program looks
into such a value without checking its shape: its truth value, `list(x or [])` and
`float(x or 0.0)`. Which shapes a conversion refuses is stated about the shape alone.
-/

set_option autoImplicit false

namespace AgentPay.Library

/-- A float; a finite one is given by its value. -/
inductive PyFloat where
  | finite (q : ℚ)
  | infinite (negative : Bool)
  | nan
deriving DecidableEq

/-- A value `json.loads` returns; the keys of a dictionary are distinct. -/
inductive PyValue where
  | none
  | bool (b : Bool)
  | int (n : ℤ)
  | float (x : PyFloat)
  | str (s : String)
  | list (items : List PyValue)
  | dict (fields : List (String × PyValue))

/-- What a conversion raises. -/
inductive ConversionError where
  | typeError
  | valueError
  | overflowError
deriving DecidableEq

namespace PyValue

/-- The truth value: none, zero and everything empty are false. -/
def truthy : PyValue → Bool
  | none => false
  | bool b => b
  | int n => n != 0
  | float x => x != .finite 0
  | str s => s != ""
  | list items => !items.isEmpty
  | dict fields => !fields.isEmpty

/-- `fields.get(key)`. -/
def get (key : String) (fields : List (String × PyValue)) : PyValue :=
  (fields.lookup key).getD none

/-- `list(x)`. -/
def toList : PyValue → Except ConversionError (List PyValue)
  | str s => .ok (s.toList.map fun c => str (String.singleton c))
  | list items => .ok items
  | dict fields => .ok (fields.map fun f => str f.1)
  | none | bool _ | int _ | float _ => .error .typeError

/-- `list(x or [])`. -/
def listOr (x : PyValue) : Except ConversionError (List PyValue) :=
  if x.truthy then x.toList else .ok []

/-- The shapes `list(x or [])` refuses: true, and the numbers other than zero. -/
def notIterable (x : PyValue) : Bool :=
  x.truthy && match x with
    | bool _ | int _ | float _ => true
    | _ => false

/-- A natural number rounded to 53 binary digits, ties to even. -/
def roundDouble (n : ℕ) : ℕ :=
  let unit := 2 ^ (Nat.log2 n - 52)
  let down := n / unit
  if 2 * (n % unit) < unit then down * unit
  else if unit < 2 * (n % unit) then (down + 1) * unit
  else if down % 2 = 0 then down * unit
  else (down + 1) * unit

/-- `float(n)` of an integer, refused beyond the range of floats. -/
def floatOfInt (n : ℤ) : Except ConversionError PyFloat :=
  let magnitude := roundDouble n.natAbs
  if magnitude < 2 ^ 1024 then .ok (.finite (if n < 0 then -magnitude else magnitude))
  else .error .overflowError

/-- `float(x)`; `parse` reads a text. -/
def toFloat (parse : String → Option PyFloat) : PyValue → Except ConversionError PyFloat
  | bool b => .ok (.finite (if b then 1 else 0))
  | int n => floatOfInt n
  | float x => .ok x
  | str s => match parse s with
    | some x => .ok x
    | Option.none => .error .valueError
  | none | list _ | dict _ => .error .typeError

/-- `float(x or 0.0)`. -/
def floatOr (parse : String → Option PyFloat) (x : PyValue) : Except ConversionError PyFloat :=
  if x.truthy then x.toFloat parse else .ok (.finite 0)

/-- The shapes `float(x or 0.0)` refuses: texts of no number, integers beyond the range of floats,
and lists and dictionaries that are not empty. -/
def notNumeric (parse : String → Option PyFloat) (x : PyValue) : Bool :=
  x.truthy && match x with
    | int n => decide (2 ^ 1024 ≤ roundDouble n.natAbs)
    | str s => (parse s).isNone
    | list _ | dict _ => true
    | none | bool _ | float _ => false

/-- `list(x or [])` succeeds on every other shape. -/
theorem listOr_isOk (x : PyValue) : x.listOr.isOk = !x.notIterable := by
  unfold listOr notIterable
  cases htruthy : x.truthy with
  | false => rfl
  | true =>
      rw [if_pos rfl, Bool.true_and]
      cases x with
      | none => cases htruthy
      | _ => rfl

/-- `float(x or 0.0)` succeeds on every other shape. -/
theorem floatOr_isOk (parse : String → Option PyFloat) (x : PyValue) :
    (x.floatOr parse).isOk = !x.notNumeric parse := by
  unfold floatOr notNumeric
  cases htruthy : x.truthy with
  | false => rfl
  | true =>
      rw [if_pos rfl, Bool.true_and]
      cases x with
      | none => cases htruthy
      | int n =>
          rw [toFloat, floatOfInt]
          by_cases hrange : roundDouble n.natAbs < 2 ^ 1024
          · simp only [if_pos hrange, decide_eq_false (Nat.not_le.2 hrange)]
            rfl
          · simp only [if_neg hrange, decide_eq_true (Nat.not_lt.1 hrange)]
            rfl
      | str s =>
          simp only [toFloat]
          cases parse s <;> rfl
      | _ => rfl

theorem listOr_list (items : List PyValue) : (list items).listOr = .ok items := by
  cases items <;> rfl

theorem floatOr_float (parse : String → Option PyFloat) (x : PyFloat) :
    (float x).floatOr parse = .ok x := by
  by_cases hzero : x = .finite 0
  · rw [hzero]
    rfl
  · rw [floatOr, if_pos (by simpa [truthy] using hzero)]
    rfl

end PyValue

end AgentPay.Library
