import Mathlib.Algebra.Group.Nat.Defs
import Mathlib.Data.Fin.Basic

/-! # Range checks in a prime field

A circuit has no order on its field.  It compares two numbers by checking that a difference,
taken in the field, fits into a few bits; that works while a negative difference wraps around to
something larger.
-/

namespace Gadgets

variable {p : Nat}

/-- The element has a representative of so many bits. -/
def RangeCheck (x : Fin p) (bits : Nat) : Prop := x.val < 2 ^ bits

instance (x : Fin p) (bits : Nat) : Decidable (RangeCheck x bits) :=
  inferInstanceAs (Decidable (_ < _))

/-- A difference fits into the bits exactly when it is one of numbers, not a wrapped one. -/
theorem rangeCheck_sub {a b : Fin p} {bits m : Nat} (small : b.val ≤ m)
    (room : 2 ^ bits + m ≤ p) :
    RangeCheck (a - b) bits ↔ b.val ≤ a.val ∧ a.val - b.val < 2 ^ bits := by
  change (p - b.val + a.val) % p < 2 ^ bits ↔ _
  by_cases order : b.val ≤ a.val
  · have wrapped : p - b.val + a.val = a.val - b.val + p := by omega
    rw [wrapped, Nat.add_mod_right, Nat.mod_eq_of_lt (by omega)]
    exact ⟨fun fits => ⟨order, fits⟩, And.right⟩
  · rw [Nat.mod_eq_of_lt (by omega)]
    constructor
    · intro fits
      omega
    · intro numbers
      exact absurd numbers.1 order

/-- An increment that cannot reach the modulus. -/
theorem val_add_of_lt {a b : Fin p} (room : a.val + b.val < p) : (a + b).val = a.val + b.val := by
  rw [Fin.val_add, Nat.mod_eq_of_lt room]

theorem val_mul_of_lt {a b : Fin p} (room : a.val * b.val < p) : (a * b).val = a.val * b.val := by
  rw [Fin.val_mul, Nat.mod_eq_of_lt room]

end Gadgets
