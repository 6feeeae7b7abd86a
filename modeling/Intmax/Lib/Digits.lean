import Mathlib.Data.Nat.Digits.Lemmas

/-! # Arithmetic digit by digit

Numbers as lists of digits, lowest first, and the schoolbook methods that go through two of them
at once: addition with a carry, subtraction with a borrow, and comparison in which every digit that
differs overrides what the digits below it said.
-/

namespace Digits

open List Nat

variable {base carry borrow : Nat} {pairs : List (Nat × Nat)}

/-- The digits of both numbers are digits. -/
def Below (base : Nat) (pairs : List (Nat × Nat)) : Prop :=
  ∀ pair ∈ pairs, pair.1 < base ∧ pair.2 < base

theorem below_cons {pair : Nat × Nat} :
    Below base (pair :: pairs) ↔ (pair.1 < base ∧ pair.2 < base) ∧ Below base pairs :=
  forall_mem_cons

/-- The first of two numbers. -/
def first (base : Nat) (pairs : List (Nat × Nat)) : Nat := Nat.ofDigits base (pairs.map Prod.fst)

/-- The second of two numbers. -/
def second (base : Nat) (pairs : List (Nat × Nat)) : Nat := Nat.ofDigits base (pairs.map Prod.snd)

@[simp] theorem first_nil : first base [] = 0 := rfl

@[simp] theorem second_nil : second base [] = 0 := rfl

@[simp] theorem first_cons {pair : Nat × Nat} :
    first base (pair :: pairs) = pair.1 + base * first base pairs := ofDigits_cons

@[simp] theorem second_cons {pair : Nat × Nat} :
    second base (pair :: pairs) = pair.2 + base * second base pairs := ofDigits_cons

section
variable {α : Type} {f : α → Nat} {l l' : List α}

/-- Two lists of as many digits, paired up. -/
theorem first_zip (lengths : l.length = l'.length) :
    first base ((l.zip l').map fun pair => (f pair.1, f pair.2)) = ofDigits base (l.map f) := by
  rw [first, map_map]
  conv_rhs => rw [← map_fst_zip (le_of_eq lengths), map_map]
  rfl

theorem second_zip (lengths : l.length = l'.length) :
    second base ((l.zip l').map fun pair => (f pair.1, f pair.2)) =
      ofDigits base (l'.map f) := by
  rw [second, map_map]
  conv_rhs => rw [← map_snd_zip (le_of_eq lengths.symm), map_map]
  rfl

theorem below_zip (left : ∀ x ∈ l, f x < base) (right : ∀ x ∈ l', f x < base) :
    Below base ((l.zip l').map fun pair => (f pair.1, f pair.2)) := by
  intro pair member
  obtain ⟨⟨a, b⟩, inside, rfl⟩ := mem_map.mp member
  obtain ⟨first, second⟩ := of_mem_zip inside
  exact ⟨left a first, right b second⟩

end

/-! ## Addition -/

/-- The digits of the sum and the last carry. -/
def addUp (base : Nat) : Nat → List (Nat × Nat) → List Nat × Nat
  | carry, [] => ([], carry)
  | carry, (a, b) :: rest =>
    let above := addUp base ((carry + a + b) / base) rest
    ((carry + a + b) % base :: above.1, above.2)

theorem addUp_length : (addUp base carry pairs).1.length = pairs.length := by
  induction pairs generalizing carry with
  | nil => rfl
  | cons pair rest ih => simp [addUp, ih]

theorem addUp_below (proper : 0 < base) (carry : Nat) (pairs : List (Nat × Nat)) :
    ∀ d ∈ (addUp base carry pairs).1, d < base := by
  induction pairs generalizing carry with
  | nil => simp [addUp]
  | cons pair rest ih =>
    simp only [addUp, forall_mem_cons]
    exact ⟨mod_lt _ proper, ih _⟩

/-- Nothing is lost between the digits and the carry. -/
theorem addUp_value (base carry : Nat) (pairs : List (Nat × Nat)) :
    ofDigits base (addUp base carry pairs).1 +
    base ^ pairs.length * (addUp base carry pairs).2 =
      carry + first base pairs + second base pairs := by
  induction pairs generalizing carry with
  | nil => simp [addUp]
  | cons pair rest ih =>
    obtain ⟨a, b⟩ := pair
    have above := ih ((carry + a + b) / base)
    have split := mod_add_div (carry + a + b) base
    simp [addUp, ofDigits_cons]
    calc _ = (carry + a + b) % base + base *
          (ofDigits base (addUp base ((carry + a + b) / base) rest).1 +
            base ^ rest.length * (addUp base ((carry + a + b) / base) rest).2) := by ring
      _ = (carry + a + b) % base + base * ((carry + a + b) / base) +
          base * (first base rest + second base rest) := by rw [above]; ring
      _ = _ := by rw [split]; ring

theorem carry_le {a b : Nat} (below : a < base ∧ b < base) (small : carry ≤ 1) :
    (carry + a + b) / base ≤ 1 := by
  have sum : carry + a + b < 2 * base := by omega
  exact Nat.le_of_lt_succ (Nat.div_lt_of_lt_mul (by rwa [mul_comm]))

theorem addUp_carry_le (below : Below base pairs) (small : carry ≤ 1) :
    (addUp base carry pairs).2 ≤ 1 := by
  induction pairs generalizing carry with
  | nil => exact small
  | cons pair rest ih =>
    obtain ⟨digit, rest_below⟩ := below_cons.mp below
    exact ih rest_below (carry_le digit small)

/-- The carry tells whether the sum has more digits than its summands. -/
theorem addUp_carry_eq_zero_iff (proper : 1 < base) (carry : Nat) (pairs : List (Nat × Nat)) :
    (addUp base carry pairs).2 = 0 ↔
    carry + first base pairs + second base pairs < base ^ pairs.length := by
  have value := addUp_value base carry pairs
  have bound := ofDigits_lt_base_pow_length proper
    (addUp_below (zero_lt_of_lt proper) carry pairs)
  rw [addUp_length] at bound
  constructor
  · intro none
    rw [none, mul_zero, add_zero] at value
    omega
  · intro fits
    by_contra some
    have : base ^ pairs.length * 1 ≤ base ^ pairs.length * (addUp base carry pairs).2 :=
      mul_le_mul_left _ (pos_of_ne_zero some)
    omega

/-! ## Subtraction -/

/-- The digit of a difference. -/
def subDigit (base borrow a b : Nat) : Nat :=
  if b + borrow ≤ a then a - b - borrow else a + base - b - borrow

/-- The borrow after a digit. -/
def subBorrow (borrow a b : Nat) : Nat := if b + borrow ≤ a then 0 else 1

/-- The digits of the difference and the last borrow. -/
def subUp (base : Nat) : Nat → List (Nat × Nat) → List Nat × Nat
  | borrow, [] => ([], borrow)
  | borrow, (a, b) :: rest =>
    let above := subUp base (subBorrow borrow a b) rest
    (subDigit base borrow a b :: above.1, above.2)

theorem subUp_length : (subUp base borrow pairs).1.length = pairs.length := by
  induction pairs generalizing borrow with
  | nil => rfl
  | cons pair rest ih => simp [subUp, ih]

theorem subBorrow_le (borrow a b : Nat) : subBorrow borrow a b ≤ 1 := by
  unfold subBorrow
  split <;> omega

theorem subDigit_spec {a b : Nat} (below : a < base ∧ b < base) (small : borrow ≤ 1) :
    subDigit base borrow a b < base ∧
      a + base * subBorrow borrow a b = subDigit base borrow a b + b + borrow := by
  unfold subDigit subBorrow
  split <;> omega

theorem subUp_below (below : Below base pairs) (small : borrow ≤ 1) :
    ∀ d ∈ (subUp base borrow pairs).1, d < base := by
  induction pairs generalizing borrow with
  | nil => simp [subUp]
  | cons pair rest ih =>
    obtain ⟨digit, rest_below⟩ := below_cons.mp below
    simp only [subUp, forall_mem_cons]
    exact ⟨(subDigit_spec digit small).1, ih rest_below (subBorrow_le _ _ _)⟩

/-- Nothing is lost between the digits and the borrow. -/
theorem subUp_value (below : Below base pairs) (small : borrow ≤ 1) :
    first base pairs + base ^ pairs.length * (subUp base borrow pairs).2 =
      ofDigits base (subUp base borrow pairs).1 + second base pairs + borrow := by
  induction pairs generalizing borrow with
  | nil => simp [subUp]
  | cons pair rest ih =>
    obtain ⟨a, b⟩ := pair
    obtain ⟨digit, rest_below⟩ := below_cons.mp below
    have above := ih rest_below (subBorrow_le borrow a b)
    have here := (subDigit_spec digit small).2
    simp [subUp, ofDigits_cons]
    calc _ = a + base * (first base rest +
          base ^ rest.length * (subUp base (subBorrow borrow a b) rest).2) := by ring
      _ = (a + base * subBorrow borrow a b) + base * (ofDigits base (subUp base (subBorrow
          borrow a b) rest).1 + second base rest) := by rw [above]; ring
      _ = _ := by rw [here]; ring

theorem subUp_borrow_le (base : Nat) (pairs : List (Nat × Nat)) (small : borrow ≤ 1) :
    (subUp base borrow pairs).2 ≤ 1 := by
  induction pairs generalizing borrow with
  | nil => exact small
  | cons pair rest ih => exact ih (subBorrow_le _ _ _)

/-- The borrow tells whether the difference is negative. -/
theorem subUp_borrow_eq_zero_iff (proper : 1 < base) (below : Below base pairs)
    (small : borrow ≤ 1) :
    (subUp base borrow pairs).2 = 0 ↔ second base pairs + borrow ≤ first base pairs := by
  have value := subUp_value below small
  have bound := ofDigits_lt_base_pow_length proper (subUp_below below small)
  rw [subUp_length] at bound
  have bit := subUp_borrow_le base pairs small
  constructor
  · intro none
    rw [none, mul_zero, add_zero] at value
    omega
  · intro fits
    by_contra some
    rw [show (subUp base borrow pairs).2 = 1 by omega, mul_one] at value
    omega

/-! ## Comparison -/

/-- The comparison of the numbers, when the digits below gave `lower`. -/
def lessUp : Bool → List (Nat × Nat) → Bool
  | lower, [] => lower
  | lower, (a, b) :: rest => lessUp (if a = b then lower else decide (a < b)) rest

/-- The higher digits decide, and the lowest one only between equals. -/
theorem digit_lt_iff {a b : Nat} (x y : Nat) (below : a < base ∧ b < base) :
    (a + base * x < b + base * y ↔ x < y ∨ x = y ∧ a < b) ∧
      (a + base * x = b + base * y ↔ x = y ∧ a = b) := by
  rcases lt_trichotomy x y with less | rfl | more
  · have : base * (x + 1) ≤ base * y := mul_le_mul_left _ less
    rw [mul_succ] at this
    omega
  · omega
  · have : base * (y + 1) ≤ base * x := mul_le_mul_left _ more
    rw [mul_succ] at this
    omega

theorem lessUp_iff (lower : Bool) (below : Below base pairs) : lessUp lower pairs = true ↔
    first base pairs < second base pairs ∨
      first base pairs = second base pairs ∧ lower = true := by
  induction pairs generalizing lower with
  | nil => simp [lessUp]
  | cons pair rest ih =>
    obtain ⟨a, b⟩ := pair
    obtain ⟨digit, rest_below⟩ := below_cons.mp below
    obtain ⟨less, equal⟩ := digit_lt_iff (first base rest) (second base rest) digit
    rw [lessUp, ih _ rest_below, first_cons, second_cons, less, equal]
    by_cases same : a = b
    · simp [same]
    · simp [same]

end Digits
