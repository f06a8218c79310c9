import Mathlib

/-!
Three-valued conditions over nullable values, and numbers as a `numeric(_, scale)` column
stores them.

A `CHECK` passes unless its condition is false, so for passing, `AND` and `OR` are the
classical connectives and a comparison speaks of values that are there.
-/

namespace CortexDis.Sql

variable {α : Type*}

abbrev Truth := Option Bool

namespace Truth

def and : Truth → Truth → Truth
  | some false, _ => some false
  | _, some false => some false
  | some true, some true => some true
  | _, _ => none

def or : Truth → Truth → Truth
  | some true, _ => some true
  | _, some true => some true
  | some false, some false => some false
  | _, _ => none

/-- A `CHECK` with this condition accepts the row. -/
def Passes (t : Truth) : Prop := t ≠ some false

instance (t : Truth) : Decidable t.Passes := inferInstanceAs (Decidable (_ ≠ _))

end Truth

def isNull (x : Option α) : Truth := some x.isNone

def isNotNull (x : Option α) : Truth := some x.isSome

/-- A comparison is unknown when a side is null. -/
def compare (r : α → α → Bool) : Option α → Option α → Truth
  | some a, some b => some (r a b)
  | _, _ => none

/-- `x IN (values)` -/
def isIn [DecidableEq α] (x : Option α) (values : List α) : Truth :=
  x.map fun a => decide (a ∈ values)

@[simp] lemma passes_and (s t : Truth) : (s.and t).Passes ↔ s.Passes ∧ t.Passes := by
  rcases s with _ | _ | _ <;> rcases t with _ | _ | _ <;> simp [Truth.and, Truth.Passes]

@[simp] lemma passes_or (s t : Truth) : (s.or t).Passes ↔ s.Passes ∨ t.Passes := by
  rcases s with _ | _ | _ <;> rcases t with _ | _ | _ <;> simp [Truth.or, Truth.Passes]

@[simp] lemma passes_isNull (x : Option α) : (isNull x).Passes ↔ x = none := by
  cases x <;> simp [isNull, Truth.Passes]

@[simp] lemma passes_isNotNull (x : Option α) : (isNotNull x).Passes ↔ x ≠ none := by
  cases x <;> simp [isNotNull, Truth.Passes]

@[simp] lemma passes_compare_null_left (r : α → α → Bool) (y : Option α) :
    (compare r none y).Passes := by
  simp [compare, Truth.Passes]

@[simp] lemma passes_compare_null_right (r : α → α → Bool) (x : Option α) :
    (compare r x none).Passes := by
  cases x <;> simp [compare, Truth.Passes]

/-! ### Numbers -/

/-- A stored number: a whole number of the column's units, or a special value. -/
inductive Numeric
  | negInfinity | finite (units : ℤ) | infinity | nan
  deriving DecidableEq, Repr

/-- The order of stored numbers; `NaN` is greatest. -/
def Numeric.le : Numeric → Numeric → Bool
  | .negInfinity, _ => true
  | _, .nan => true
  | .finite a, .finite b => a ≤ b
  | .finite _, .infinity => true
  | .infinity, .infinity => true
  | _, _ => false

/-- `n / d` to the nearest whole number, half away from zero. -/
def roundHalfAway (n : ℤ) (d : ℕ) : ℤ := n.sign * ((2 * n.natAbs + d) / (2 * d) : ℕ)

/-- `x <= y` -/
def le (x y : Option Numeric) : Truth := compare Numeric.le x y

/-- `x < y` -/
def lt (x y : Option Numeric) : Truth := compare (fun a b => !b.le a) x y

end CortexDis.Sql
