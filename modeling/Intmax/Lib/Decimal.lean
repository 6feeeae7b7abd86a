import Mathlib.Data.Nat.Digits.Lemmas

/-! # Decimal text

Writing a number in decimal and reading it back, the way big-integer libraries do it: a written
number has no leading zeros, while the reader takes leading zeros, one plus sign and underscores
between the digits.
-/

namespace Decimal

open List Nat

inductive ParseError where
  | empty
  | invalid
deriving DecidableEq

/-- The digits of a number, highest first. -/
def write (n : Nat) : List Char :=
  if n = 0 then ['0'] else (Nat.digits 10 n).reverse.map Nat.digitChar

/-- The digits after what has been read; an underscore is passed over. -/
def readDigits : Nat → List Char → Except ParseError Nat
  | n, [] => .ok n
  | n, c :: rest =>
    if c = '_' then readDigits n rest
    else if c.isDigit then readDigits (10 * n + (c.toNat - 48)) rest
    else .error .invalid

/-- A single plus sign is dropped. -/
def stripSign (text : List Char) : List Char :=
  if text.head? = some '+' ∧ text.tail.head? ≠ some '+' then text.tail else text

def read (text : List Char) : Except ParseError Nat :=
  if stripSign text = [] then .error .empty
  else if (stripSign text).head? = some '_' then .error .invalid
  else readDigits 0 (stripSign text)

/-- Text as numbers are written: digits only, and no zero in front of others. -/
def Canonical (text : List Char) : Prop :=
  text = ['0'] ∨ (text ≠ [] ∧ text.head? ≠ some '0' ∧ ∀ c ∈ text, c.isDigit = true)

instance (text : List Char) : Decidable (Canonical text) :=
  inferInstanceAs (Decidable (_ ∨ _))

/-! ## Single characters -/

theorem digitChar_spec : ∀ d < 10, (digitChar d).isDigit = true ∧ digitChar d ≠ '_' ∧
    digitChar d ≠ '+' ∧ (digitChar d).toNat - 48 = d ∧ (digitChar d = '0' → d = 0) := by
  decide

theorem digitChar_of_range : ∀ n < 58, 48 ≤ n → digitChar (n - 48) = Char.ofNat n := by
  decide

theorem isDigit_range {c : Char} (digit : c.isDigit = true) : 48 ≤ c.toNat ∧ c.toNat < 58 := by
  simp [Char.isDigit] at digit
  exact ⟨digit.1, lt_succ_of_le digit.2⟩

theorem digitChar_toNat {c : Char} (digit : c.isDigit = true) :
    digitChar (c.toNat - 48) = c := by
  obtain ⟨low, high⟩ := isDigit_range digit
  rw [digitChar_of_range _ high low, Char.ofNat_toNat]

/-! ## Reading digits -/

theorem readDigits_map {digits : List Nat} (below : ∀ d ∈ digits, d < 10) (n : Nat) :
    readDigits n (digits.map digitChar) =
      .ok (10 ^ digits.length * n + ofDigits 10 digits.reverse) := by
  induction digits generalizing n with
  | nil => simp [readDigits]
  | cons d rest ih =>
    obtain ⟨here, rest_below⟩ := forall_mem_cons.mp below
    obtain ⟨digit, notUnderscore, -, back, -⟩ := digitChar_spec d here
    rw [map_cons, readDigits, if_neg notUnderscore, if_pos digit, back, ih rest_below, reverse_cons,
      ofDigits_append, ofDigits_singleton, length_reverse, length_cons, pow_succ]
    congr 1
    ring

theorem read_map {digits : List Nat} (below : ∀ d ∈ digits, d < 10) (nonempty : digits ≠ []) :
    read (digits.map digitChar) = .ok (ofDigits 10 digits.reverse) := by
  cases digits with
  | nil => exact absurd rfl nonempty
  | cons d rest =>
    obtain ⟨-, notUnderscore, notPlus, -, -⟩ := digitChar_spec d (below d (by simp))
    have unsigned : stripSign ((d :: rest).map digitChar) = (d :: rest).map digitChar := by
      simp [stripSign, notPlus]
    have digits := readDigits_map below 0
    rw [read, unsigned, digits, mul_zero, zero_add]
    simp [notUnderscore]

theorem readDigits_isDigit {text : List Char} (digits : ∀ c ∈ text, c.isDigit = true) :
    (text.map fun c => c.toNat - 48).map digitChar = text ∧
      ∀ d ∈ text.map fun c => c.toNat - 48, d < 10 := by
  constructor
  · rw [map_map]
    conv_rhs => rw [← map_id text]
    exact map_congr_left fun c member => digitChar_toNat (digits c member)
  · intro d member
    obtain ⟨c, inside, rfl⟩ := mem_map.mp member
    have range := isDigit_range (digits c inside)
    omega

/-! ## Writing and reading -/

theorem canonical_write (n : Nat) : Canonical (write n) := by
  unfold write
  split
  case isTrue => exact Or.inl rfl
  case isFalse positive =>
    have nonempty : digits 10 n ≠ [] := digits_ne_nil_iff_ne_zero.mpr positive
    have below : ∀ d ∈ (digits 10 n).reverse, d < 10 := fun d member =>
      digits_lt_base (by decide) (mem_reverse.mp member)
    refine Or.inr ⟨by simpa using nonempty, ?_, ?_⟩
    · rw [head?_map, head?_reverse, getLast?_eq_some_getLast nonempty]
      intro zero
      have top := getLast_mem nonempty
      refine getLast_digit_ne_zero 10 positive ?_
      exact (digitChar_spec _ (below _ (mem_reverse.mpr top))).2.2.2.2 (Option.some.inj zero)
    · intro c member
      obtain ⟨d, inside, rfl⟩ := mem_map.mp member
      exact (digitChar_spec d (below d inside)).1

/-- Canonical text is made of digits, and is what their number is written as. -/
theorem exists_digits_of_canonical {text : List Char} (canonical : Canonical text) :
    ∃ digits, digits ≠ [] ∧ (∀ d ∈ digits, d < 10) ∧ digits.map digitChar = text ∧
      write (ofDigits 10 digits.reverse) = text := by
  rcases canonical with rfl | ⟨nonempty, front, digits⟩
  · exact ⟨[0], by decide, by decide, rfl, rfl⟩
  · obtain ⟨same, below⟩ := readDigits_isDigit digits
    have numbers : (text.map fun c => c.toNat - 48) ≠ [] := by simpa using nonempty
    refine ⟨_, numbers, below, same, ?_⟩
    -- the highest digit is not zero, so these are the digits of the number
    have top : ∀ some : (text.map fun c => c.toNat - 48).reverse ≠ [],
        (text.map fun c => c.toNat - 48).reverse.getLast some ≠ 0 := by
      intro some zero
      cases text with
      | nil => exact nonempty rfl
      | cons c rest =>
        simp at zero
        have digit := digitChar_toNat (digits c (by simp))
        rw [zero] at digit
        exact front (by rw [← digit]; rfl)
    have written := digits_ofDigits 10 (by decide) (text.map fun c => c.toNat - 48).reverse
      (fun d member => below d (mem_reverse.mp member)) top
    unfold write
    rw [written, reverse_reverse, same, if_neg]
    intro zero
    rw [zero, digits_zero] at written
    exact numbers (reverse_eq_nil_iff.mp written.symm)

/-- What is written is made of digits of the number. -/
theorem exists_digits_write (n : Nat) : ∃ digits, digits ≠ [] ∧ (∀ d ∈ digits, d < 10) ∧
    digits.map digitChar = write n ∧ ofDigits 10 digits.reverse = n := by
  unfold write
  split
  case isTrue zero =>
    rw [zero]
    exact ⟨[0], by decide, by decide, rfl, rfl⟩
  case isFalse positive =>
    refine ⟨(Nat.digits 10 n).reverse, ?_, ?_, rfl, ?_⟩
    · simpa [digits_eq_nil_iff_eq_zero] using positive
    · intro d member
      exact digits_lt_base (by decide) (mem_reverse.mp member)
    · rw [reverse_reverse, ofDigits_digits]

theorem read_write (n : Nat) : read (write n) = .ok n := by
  obtain ⟨digits, nonempty, below, same, value⟩ := exists_digits_write n
  rw [← same, read_map below nonempty, value]

end Decimal
