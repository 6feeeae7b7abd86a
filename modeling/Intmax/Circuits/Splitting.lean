import Intmax.Lib.Builder
import Intmax.Lib.Gadgets
import Intmax.Trees.Leaves

/-! # Values in a circuit and their words

A circuit computes with elements of the Goldilocks field.  A gadget that ends in a digest or in a
32-byte word is modelled by the value it builds; where a number is compared or added, the field
element is kept and its range checks are part of the constraints.  The booleans, words and splits
are those of plonky2, by what they are documented to enforce, and the split of
`utils/poseidon_hash_out.rs` that gives an element its two canonical words.
-/

namespace Intmax

open Gadgets Builder Hashing Trees

/-- The value of a `Target`. -/
abbrev Target := Fin goldilocksOrder

instance : NeZero goldilocksOrder := ⟨by decide⟩

namespace Target

/-- `F::from_canonical_u64`, for a number below the order. -/
def ofNat (n : Nat) : Target := Fin.ofNat goldilocksOrder n

@[simp] theorem ofNat_val {n : Nat} (below : n < goldilocksOrder) : (ofNat n).val = n :=
  Nat.mod_eq_of_lt below

theorem ofNat_eq_iff {n : Nat} {x : Target} (below : n < goldilocksOrder) :
    x = ofNat n ↔ x.val = n := by
  rw [Fin.ext_iff, ofNat_val below]

/-- A number of at most 63 bits is below the order. -/
theorem lt_order {n : Nat} (fits : n < 2 ^ 63) : n < goldilocksOrder := lt_trans fits (by decide)

theorem rangeCheck_ofNat {n bits : Nat} (below : n < goldilocksOrder) :
    RangeCheck (ofNat n) bits ↔ n < 2 ^ bits := by
  rw [RangeCheck, ofNat_val below]

/-- Comparing numbers of 32 bits by the range of their difference. -/
theorem rangeCheck_sub {a b : Target} {bits : Nat} (few : bits ≤ 63) (small : b.val < 2 ^ 32) :
    RangeCheck (a - b) bits ↔ b.val ≤ a.val ∧ a.val - b.val < 2 ^ bits := by
  have power : 2 ^ bits ≤ 2 ^ 63 := Nat.pow_le_pow_right (by decide) few
  have room : 2 ^ 63 + 2 ^ 32 ≤ goldilocksOrder := by decide
  exact Gadgets.rangeCheck_sub (le_of_lt small) (le_trans (Nat.add_le_add_right power _) room)

/-- `mul_const_add`. -/
theorem val_mul_const_add {c : Nat} {x y : Target} (constant : c < goldilocksOrder)
    (room : c * x.val + y.val < goldilocksOrder) :
    (ofNat c * x + y).val = c * x.val + y.val := by
  have product : (ofNat c * x).val = c * x.val := by
    rw [val_mul_of_lt (by rw [ofNat_val constant]; omega), ofNat_val constant]
  rw [val_add_of_lt (by rw [product]; exact room), product]

end Target

open Target

/-- `range_check`. -/
def rangeCheck (x : Target) (bits : Nat) : Builder Unit := require (RangeCheck x bits)

/-- `split_low_high`: the low and the high word of an element. -/
def splitLowHigh (x : Target) (lowBits bits : Nat) : Builder (Target × Target) := do
  let lo ← free
  let hi ← free
  rangeCheck lo lowBits
  rangeCheck hi (bits - lowBits)
  require (x = Target.ofNat (2 ^ lowBits) * hi + lo)
  pure (lo, hi)

/-- `safe_split_lo_and_hi`: where the high word is the largest one, the low word is zero. -/
def safeSplitLoAndHi (x : Target) : Builder (Target × Target) := do
  let (lo, hi) ← splitLowHigh x 32 64
  let hiMax := Target.ofNat (2 ^ 32 - 1)
  let isHiMax : Target := if hi = hiMax then 1 else 0
  require (isHiMax * lo = 0)
  pure (lo, hi)

/-- The words of an element. -/
def loAndHi (x : Target) : Target × Target :=
  (Target.ofNat (x.val % 2 ^ 32), Target.ofNat (x.val / 2 ^ 32))

/-- The two words of an element, once the largest high word stands with a zero only.  Without that
    an element below `2 ^ 32 - 1` has a second pair of words, which is one modulus larger. -/
theorem words_iff {x lo hi : Target} :
    lo.val < 2 ^ 32 ∧ hi.val < 2 ^ 32 ∧ x = ofNat (2 ^ 32) * hi + lo ∧
      (hi.val = 2 ^ 32 - 1 → lo.val = 0) ↔
    (lo, hi) = loAndHi x := by
  have order : goldilocksOrder = 2 ^ 64 - 2 ^ 32 + 1 := rfl
  rw [loAndHi, Prod.mk.injEq, ofNat_eq_iff (by omega), ofNat_eq_iff (by omega)]
  constructor
  · rintro ⟨lowFits, highFits, whole, unaliased⟩
    have room : 2 ^ 32 * hi.val + lo.val < goldilocksOrder := by omega
    have value : x.val = 2 ^ 32 * hi.val + lo.val := by
      rw [whole, val_mul_const_add (by decide) room]
    omega
  · rintro ⟨low, high⟩
    have room : 2 ^ 32 * hi.val + lo.val < goldilocksOrder := by omega
    refine ⟨by omega, by omega, Fin.ext ?_, by omega⟩
    rw [val_mul_const_add (by decide) room]
    omega

/-- A product with an indicator. -/
theorem indicator_mul_eq_zero {P : Prop} [Decidable P] {x : Target} :
    (if P then (1 : Target) else 0) * x = 0 ↔ (P → x.val = 0) := by
  by_cases holds : P
  · rw [if_pos holds, Fin.one_mul, Fin.ext_iff]
    exact ⟨fun zero _ => zero, fun zero => zero holds⟩
  · rw [if_neg holds, Fin.zero_mul]
    exact ⟨fun _ absurdity => absurd absurdity holds, fun _ => rfl⟩

theorem splitLowHigh_apply {x : Target} {words : Target × Target} : splitLowHigh x 32 64 words ↔
    words.1.val < 2 ^ 32 ∧ words.2.val < 2 ^ 32 ∧ x = ofNat (2 ^ 32) * words.2 + words.1 := by
  simp only [splitLowHigh, rangeCheck, bind_apply, free_apply, require_apply, pure_apply,
    true_and, exists_const, RangeCheck]
  constructor
  · rintro ⟨lo, hi, lowFits, highFits, whole, rfl⟩
    exact ⟨lowFits, highFits, whole⟩
  · rintro ⟨lowFits, highFits, whole⟩
    exact ⟨words.1, words.2, lowFits, highFits, whole, rfl⟩

theorem safeSplitLoAndHi_eq (x : Target) : safeSplitLoAndHi x = pure (loAndHi x) := by
  refine ext fun words => ?_
  have unaliased : (words.2 = ofNat (2 ^ 32 - 1) → words.1.val = 0) ↔
      (words.2.val = 2 ^ 32 - 1 → words.1.val = 0) := by
    rw [ofNat_eq_iff (by decide)]
  have both : safeSplitLoAndHi x words ↔ splitLowHigh x 32 64 words ∧
      (words.2 = ofNat (2 ^ 32 - 1) → words.1.val = 0) := by
    constructor
    · rintro ⟨⟨lo, hi⟩, split, _, gated, rfl⟩
      exact ⟨split, indicator_mul_eq_zero.mp gated⟩
    · rintro ⟨split, gated⟩
      exact ⟨words, split, (), indicator_mul_eq_zero.mpr gated, rfl⟩
  rw [both, splitLowHigh_apply, unaliased, and_assoc, and_assoc, words_iff, pure_apply]

/-! ## Words of 32 bytes -/

/-- The eight limbs of a `Bytes32Target`. -/
abbrev Bytes32Target := Fin 8 → Target

/-- `Bytes32Target::from_hash_out`: the high and the low word of each element. -/
def Bytes32Target.fromHashOut (elements : Fin 4 → Target) : Builder Bytes32Target := do
  let words ← each fun i => safeSplitLoAndHi (elements i)
  pure fun i =>
    let (low, high) := words ⟨i.val / 2, by omega⟩
    if i.val % 2 = 0 then high else low

theorem Bytes32Target.fromHashOut_eq (elements : Fin 4 → Target) :
    Bytes32Target.fromHashOut elements = pure fun i =>
      if i.val % 2 = 0 then (loAndHi (elements ⟨i.val / 2, by omega⟩)).2
      else (loAndHi (elements ⟨i.val / 2, by omega⟩)).1 := by
  rw [Bytes32Target.fromHashOut, each_pure fun i => safeSplitLoAndHi_eq (elements i), pure_bind]

variable {D B V : Type} [Hashing D B] [Leafable D V]

/-- The constraints of `MerkleProofTarget::verify` on a proof of fixed height: the index is split
    into as many bits as there are siblings. -/
structure MerkleProofVerifies (height : Nat) (proof : MerkleProof D) (leafData : V) (index : Target)
    (merkleRoot : D) : Prop where
  length : proof.siblings.length = height
  inside : RangeCheck index height
  root : proof.getRoot leafData (BitVec.ofNat 64 index.val) = merkleRoot

end Intmax
