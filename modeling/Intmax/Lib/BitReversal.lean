import Mathlib.Tactic.Ring

/-! # Bit reversal -/

namespace BitReversal

/-- The `n` low bits of a number in reverse order. -/
def reverseBits : Nat → Nat → Nat
  | 0, _ => 0
  | n + 1, i => i % 2 * 2 ^ n + reverseBits n (i / 2)

theorem reverseBits_lt (n i : Nat) : reverseBits n i < 2 ^ n := by
  induction n generalizing i with
  | zero => exact one_pos
  | succ n ih =>
    have rest := ih (i / 2)
    have bit : i % 2 * 2 ^ n ≤ 1 * 2 ^ n := Nat.mul_le_mul_right _ (by omega)
    rw [reverseBits, pow_succ]
    omega

/-- The highest bit comes out lowest. -/
theorem reverseBits_high {n i : Nat} (below : i < 2 ^ n) {b : Nat} (bit : b < 2) :
    reverseBits (n + 1) (b * 2 ^ n + i) = 2 * reverseBits n i + b := by
  induction n generalizing i with
  | zero =>
    have zero : i = 0 := by simpa using below
    simp [reverseBits, zero, Nat.mod_eq_of_lt bit]
  | succ n ih =>
    have half : i / 2 < 2 ^ n := by
      rw [pow_succ] at below
      omega
    have split : b * 2 ^ (n + 1) = 2 * (b * 2 ^ n) := by ring
    rw [reverseBits, show (b * 2 ^ (n + 1) + i) / 2 = b * 2 ^ n + i / 2 by omega, ih half,
      show (b * 2 ^ (n + 1) + i) % 2 = i % 2 by omega, reverseBits, pow_succ]
    ring

theorem reverseBits_reverseBits {n i : Nat} (below : i < 2 ^ n) :
    reverseBits n (reverseBits n i) = i := by
  induction n generalizing i with
  | zero =>
    have zero : i = 0 := by simpa using below
    rw [zero]
    rfl
  | succ n ih =>
    have half : i / 2 < 2 ^ n := by
      rw [pow_succ] at below
      omega
    have first : reverseBits (n + 1) i = i % 2 * 2 ^ n + reverseBits n (i / 2) := rfl
    rw [first, reverseBits_high (reverseBits_lt n _) (Nat.mod_lt _ (by decide)), ih half]
    omega

/-- The low bits come out high. -/
theorem reverseBits_add (m n i : Nat) : reverseBits (m + n) i =
    reverseBits m (i % 2 ^ m) * 2 ^ n + reverseBits n (i / 2 ^ m) := by
  induction m generalizing i with
  | zero => simp [reverseBits]
  | succ m ih =>
    have low : i % 2 ^ (m + 1) % 2 = i % 2 := Nat.mod_mod_of_dvd _ (Dvd.intro_left _ rfl)
    have high : i % 2 ^ (m + 1) / 2 = i / 2 % 2 ^ m := by
      rw [pow_succ', Nat.mod_mul_right_div_self]
    rw [show m + 1 + n = m + n + 1 by omega, reverseBits, ih, reverseBits, low, high,
      Nat.div_div_eq_div_mul, ← pow_succ', pow_add]
    ring

end BitReversal
