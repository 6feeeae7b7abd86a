import Mathlib.FieldTheory.Finite.Basic
import Mathlib.Tactic.NormNum.Prime
import Mathlib.Tactic.NormNum.PowMod
import Intmax.Lib.Barycentric
import Intmax.Lib.BitReversal
import Intmax.Lib.Lucas
import Intmax.Blob.Encoders

/-! # Evaluating a blob

`_evaluateBlob` of `BlobKZGVerifierExt` evaluates the polynomial of a blob at a point.  The blob
holds its values at the 4096-th roots of unity in bit-reversed order.  One pass forward multiplies
the denominators up, one exponentiation inverts their product, and one pass backward takes the
single inverses out of it.
-/

namespace Intmax.Blob

open BitReversal Function Nat Finset

def blsModulus : Nat := 0x73eda753299d7d483339d80809a1d80553bda402fffe5bfeffffffff00000001

def blsModulusMinusTwo : Nat := 0x73eda753299d7d483339d80809a1d80553bda402fffe5bfefffffffeffffffff

def rootOfUnity : Nat := 0x564c0a11a0f704f4fc3e8acfe0f8245f0ad1347b378fbf96e206da11a5d36306

def rootOfUnityInv : Nat := 0x0391b2856c609b4784ae25ffab9dc59865046d17864183203961a252dd8543362

def invFieldElementsPerBlob : Nat :=
  0x73e66878b46ae3705eb6a46a89213de7d3686828bfce5c19400fffff00100001

def reverseNibbles : Nat := 0xf7b3d591e6a2c480

/-! ## The contract -/

def addmod (a b modulus : Nat) : Nat := (a + b) % modulus

def mulmod (a b modulus : Nat) : Nat := a * b % modulus

/-- `z - omega`. -/
def denominator (z omega : Nat) : Nat := addmod z (blsModulus - omega) blsModulus

/-- The precompile behind `_modexp`, over the `bits` low bits of the exponent. -/
def modexpBits : Nat → Nat → Nat → Nat
  | 0, _, _ => 1 % blsModulus
  | bits + 1, base, exponent =>
    let rest := modexpBits bits (base * base % blsModulus) (exponent / 2)
    if exponent % 2 = 1 then rest * base % blsModulus else rest

def modexp (base exponent : Nat) : Nat := modexpBits 256 base exponent

def bitReverse12 (x : Nat) : Nat :=
  let table := reverseNibbles
  (((table >>> ((x &&& 0x0f) * 4)) &&& 0x0f) <<< 8) |||
    (((table >>> (((x >>> 4) &&& 0x0f) * 4)) &&& 0x0f) <<< 4) |||
    ((table >>> (((x >>> 8) &&& 0x0f) * 4)) &&& 0x0f)

/-- How the first loop ends: early at a root, or with the products of the denominators. -/
inductive Sweep where
  | atRoot (i : Nat)
  | clear (prefixes : Nat → Nat) (product : Nat)

/-- The first loop, with `n` rounds to go. -/
def sweepForward (z : Nat) : Nat → Nat → (Nat → Nat) → Nat → Nat → Sweep
  | 0, _, prefixes, product, _ => .clear prefixes product
  | n + 1, i, prefixes, product, omega =>
    if z = omega then .atRoot i
    else
      sweepForward z n (i + 1) (Function.update prefixes i product)
        (mulmod product (denominator z omega) blsModulus) (mulmod omega rootOfUnity blsModulus)

/-- The second loop, down from `cursor`. -/
def sweepBackward (blob : Nat → BitVec 256) (z : Nat) (prefixes : Nat → Nat) :
    Nat → Nat → Nat → Nat → Nat
  | 0, _, _, sum => sum
  | cursor + 1, inverseProduct, omega, sum =>
    let inverseDenominator := mulmod inverseProduct (prefixes cursor) blsModulus
    let value := (blob (bitReverse12 cursor)).toNat
    sweepBackward blob z prefixes cursor (mulmod inverseProduct (denominator z omega) blsModulus)
      (mulmod omega rootOfUnityInv blsModulus)
      (addmod sum (mulmod (mulmod value omega blsModulus) inverseDenominator blsModulus) blsModulus)

/-- `_evaluateBlob`. -/
def evaluateBlob (blob : Nat → BitVec 256) (z : Nat) : Nat :=
  match sweepForward z fieldElementsPerBlob 0 (fun _ => 0) 1 1 with
  | .atRoot i => (blob (bitReverse12 i)).toNat
  | .clear prefixes product =>
    let inverseProduct := modexp product blsModulusMinusTwo
    let sum := sweepBackward blob z prefixes fieldElementsPerBlob inverseProduct rootOfUnityInv 0
    let zToWidth := (fun x => mulmod x x blsModulus)^[12] z
    let scale := mulmod (addmod zToWidth (blsModulus - 1) blsModulus) invFieldElementsPerBlob
      blsModulus
    mulmod sum scale blsModulus

/-! ## The scalar field -/

theorem modexpBits_eq_powMod (bits base exponent : Nat) :
    modexpBits bits base exponent = Lucas.powMod blsModulus bits base exponent := by
  induction bits generalizing base exponent with
  | zero => rfl
  | succ bits ih => simp only [modexpBits, Lucas.powMod, ih]

theorem modexp_eq {exponent : Nat} (fits : exponent < 2 ^ 256) (base : Nat) :
    modexp base exponent = base ^ exponent % blsModulus := by
  rw [modexp, modexpBits_eq_powMod, Lucas.powMod_eq fits]

/-- The order of the multiplicative group, as primes with their exponents. -/
def blsFactors : List (Nat × Nat) :=
  [(2, 32), (3, 1), (11, 1), (19, 1), (10177, 1), (125527, 1), (859267, 1), (906349, 2),
    (2508409, 1), (2529403, 1), (52437899, 1), (254760293, 2)]

theorem blsFactors_prime : ∀ factor ∈ blsFactors, factor.1.Prime := by
  simp [blsFactors]
  norm_num

/-- Lucas' test with the generator 7. -/
theorem blsModulus_prime : Nat.Prime blsModulus := by
  refine Lucas.prime_of_factors 256 7 (by decide) (by decide) blsFactors_prime ?_ ?_ ?_
  · decide +kernel
  · decide +kernel
  · decide +kernel

instance blsPrime : Fact (Nat.Prime blsModulus) := ⟨blsModulus_prime⟩

/-- The scalar field of BLS12-381. -/
abbrev Scalar := ZMod blsModulus

/-- `ROOT_OF_UNITY` in the field. -/
def root : Scalar := (rootOfUnity : Scalar)

theorem cast_eq_of_mod {a b : Nat} (same : a % blsModulus = b % blsModulus) :
    (a : Scalar) = (b : Scalar) :=
  (ZMod.natCast_eq_natCast_iff' a b blsModulus).mpr same

theorem root_isPrimitiveRoot : IsPrimitiveRoot root fieldElementsPerBlob := by
  have minusOne : root ^ 2 ^ 11 = -1 := by
    rw [root, ← cast_pow, cast_eq_of_mod (b := blsModulus - 1) (by decide +kernel),
      cast_sub (by decide), ZMod.natCast_self, cast_one, zero_sub]
  have order : orderOf root = 2 ^ (11 + 1) := by
    refine orderOf_eq_prime_pow ?_ ?_
    · rw [minusOne]
      have odd : Fact (2 < blsModulus) := ⟨by decide⟩
      exact ZMod.neg_one_ne_one
    · rw [pow_succ, pow_mul, minusOne, neg_one_sq]
  have size : fieldElementsPerBlob = orderOf root := by rw [order]; rfl
  rw [size]
  exact IsPrimitiveRoot.orderOf root

theorem root_mul_inv : root * (rootOfUnityInv : Scalar) = 1 := by
  rw [root, ← cast_mul, cast_eq_of_mod (b := 1) (by decide +kernel), cast_one]

theorem inv_width : (invFieldElementsPerBlob : Scalar) = (fieldElementsPerBlob : Scalar)⁻¹ := by
  refine eq_inv_of_mul_eq_one_left ?_
  rw [← cast_mul, cast_eq_of_mod (b := 1) (by decide +kernel), cast_one]

/-! ## Bit reversal -/

theorem reverseNibbles_eq {x : Nat} :
    (reverseNibbles >>> ((x &&& 0x0f) * 4)) &&& 0x0f = reverseBits 4 (x % 2 ^ 4) := by
  have table : ∀ n : Fin 16, (reverseNibbles >>> (n.val * 4)) &&& 0x0f = reverseBits 4 n.val := by
    decide
  rw [show x &&& 0x0f = x % 2 ^ 4 from and_two_pow_sub_one_eq_mod x 4]
  exact table ⟨x % 2 ^ 4, mod_lt _ (by decide)⟩

variable {i z omega product : Nat} {prefixes : Nat → Nat} {blob : Nat → BitVec 256}
  {p : Polynomial Scalar}

/-- The table reverses the nibbles, and the shifts their order. -/
theorem bitReverse12_eq (below : i < fieldElementsPerBlob) : bitReverse12 i = reverseBits 12 i := by
  have small (n : Nat) : reverseBits 4 n < 2 ^ 4 := reverseBits_lt 4 n
  have last : i / 2 ^ 4 / 2 ^ 4 % 2 ^ 4 = i / 2 ^ 4 / 2 ^ 4 := by
    have bound : i < 4096 := below
    omega
  have middle : reverseBits 4 (i / 2 ^ 4 % 2 ^ 4) <<< 4 + reverseBits 4 (i / 2 ^ 4 / 2 ^ 4) <
      2 ^ 8 := by
    have high := small (i / 2 ^ 4 % 2 ^ 4)
    have low := small (i / 2 ^ 4 / 2 ^ 4)
    rw [shiftLeft_eq]
    omega
  simp only [bitReverse12, reverseNibbles_eq]
  simp only [shiftRight_eq_div_pow]
  rw [show i / 2 ^ 8 = i / 2 ^ 4 / 2 ^ 4 by omega, last, Nat.or_assoc,
    ← shiftLeft_add_eq_or_of_lt (small _), ← shiftLeft_add_eq_or_of_lt middle,
    reverseBits_add 4 8, reverseBits_add 4 4, shiftLeft_eq, shiftLeft_eq]

/-! ## The loops -/

theorem cast_mulmod (a b : Nat) : (mulmod a b blsModulus : Scalar) = a * b := by
  rw [mulmod, ZMod.natCast_mod, cast_mul]

theorem cast_addmod (a b : Nat) : (addmod a b blsModulus : Scalar) = a + b := by
  rw [addmod, ZMod.natCast_mod, cast_add]

theorem mulmod_lt (a b : Nat) : mulmod a b blsModulus < blsModulus := mod_lt _ (by decide)

theorem cast_denominator (small : omega < blsModulus) :
    (denominator z omega : Scalar) = z - omega := by
  rw [denominator, cast_addmod, cast_sub small.le, ZMod.natCast_self]
  ring

/-- The product of the first denominators. -/
def denominators (z : Scalar) (n : Nat) : Scalar := ∏ i ∈ Finset.range n, (z - root ^ i)

theorem denominators_succ (z : Scalar) (n : Nat) :
    denominators z (n + 1) = denominators z n * (z - root ^ n) :=
  prod_range_succ _ _

theorem denominators_ne_zero {z : Scalar} {n : Nat} (apart : ∀ i < n, z ≠ root ^ i) :
    denominators z n ≠ 0 :=
  prod_ne_zero_iff.mpr fun i inside =>
    sub_ne_zero_of_ne (apart i (mem_range.mp inside))

/-- What the variables of the first loop hold at the start of round `i`. -/
structure Forward (z i : Nat) (prefixes : Nat → Nat) (product : Nat) : Prop where
  product : (product : Scalar) = denominators z i
  prefixes : ∀ j < i, (prefixes j : Scalar) = denominators z j
  apart : ∀ j < i, (z : Scalar) ≠ root ^ j

theorem Forward.next (holds : Forward z i prefixes product) (current : (omega : Scalar) = root ^ i)
    (small : omega < blsModulus) (other : (z : Scalar) ≠ root ^ i) :
    Forward z (i + 1) (update prefixes i product)
      (mulmod product (denominator z omega) blsModulus) where
  product := by
    rw [cast_mulmod, cast_denominator small, holds.product, current, denominators_succ]
  prefixes j below := by
    by_cases last : j = i
    · rw [last, update_self, holds.product]
    · rw [update_of_ne last]
      exact holds.prefixes j (by omega)
  apart j below := by
    by_cases last : j = i
    · rw [last]
      exact other
    · exact holds.apart j (by omega)

/-- The first loop either meets the point among the roots, or ends with all denominators. -/
theorem sweepForward_spec (point : z < blsModulus) :
    ∀ {n i omega product : Nat} {prefixes : Nat → Nat}, Forward z i prefixes product →
      (omega : Scalar) = root ^ i → omega < blsModulus →
      (∃ k < i + n, sweepForward z n i prefixes product omega = .atRoot k ∧
        (z : Scalar) = root ^ k) ∨
      ∃ prefixes' product', sweepForward z n i prefixes product omega =
        .clear prefixes' product' ∧ Forward z (i + n) prefixes' product'
  | 0, i, omega, product, prefixes, holds, _, _ => .inr ⟨prefixes, product, rfl, holds⟩
  | n + 1, i, omega, product, prefixes, holds, current, small => by
    rw [sweepForward]
    split
    case isTrue met => exact .inl ⟨i, by omega, rfl, met ▸ current⟩
    case isFalse missed =>
      have other : (z : Scalar) ≠ root ^ i := by
        rw [← current]
        intro same
        have residues := (ZMod.natCast_eq_natCast_iff' z omega blsModulus).mp same
        rw [mod_eq_of_lt point, mod_eq_of_lt small] at residues
        exact missed residues
      have moved : (mulmod omega rootOfUnity blsModulus : Scalar) = root ^ (i + 1) := by
        rw [cast_mulmod, current, pow_succ]
        rfl
      have later := sweepForward_spec point (n := n) (holds.next current small other) moved
        (mulmod_lt _ _)
      rwa [show i + 1 + n = i + (n + 1) by omega] at later

/-- The second loop adds one term of the sum for each root. -/
theorem sweepBackward_spec (apart : ∀ i < fieldElementsPerBlob, (z : Scalar) ≠ root ^ i)
    (products : ∀ i < fieldElementsPerBlob, (prefixes i : Scalar) = denominators z i)
    {cursor inverseProduct sum : Nat} (inside : cursor ≤ fieldElementsPerBlob)
    (inverse : (inverseProduct : Scalar) = (denominators z cursor)⁻¹)
    (current : (omega : Scalar) * root = root ^ cursor) (small : omega < blsModulus) :
    (sweepBackward blob z prefixes cursor inverseProduct omega sum : Scalar) =
      sum + ∑ i ∈ range cursor,
        ((blob (bitReverse12 i)).toNat : Scalar) * root ^ i * (z - root ^ i)⁻¹ := by
  induction cursor generalizing inverseProduct omega sum with
  | zero => rw [sweepBackward, sum_range_zero, add_zero]
  | succ cursor ih =>
    have nonzero : root ≠ 0 := root_isPrimitiveRoot.ne_zero (by decide)
    have here : (omega : Scalar) = root ^ cursor :=
      mul_right_cancel₀ nonzero (by rw [current, pow_succ])
    have gap : (z : Scalar) - root ^ cursor ≠ 0 := sub_ne_zero_of_ne (apart cursor inside)
    have before : denominators (z : Scalar) cursor ≠ 0 :=
      denominators_ne_zero fun i below => apart i (by omega)
    have step : (mulmod inverseProduct (denominator z omega) blsModulus : Scalar) =
        (denominators z cursor)⁻¹ := by
      rw [cast_mulmod, inverse, cast_denominator small, here, denominators_succ, mul_inv, mul_assoc,
        inv_mul_cancel₀ gap, mul_one]
    have term : (inverseProduct : Scalar) * prefixes cursor = (z - root ^ cursor)⁻¹ := by
      rw [inverse, products cursor inside, denominators_succ, mul_inv_rev, mul_assoc,
        inv_mul_cancel₀ before, mul_one]
    have back : (mulmod omega rootOfUnityInv blsModulus : Scalar) * root = root ^ cursor := by
      rw [cast_mulmod, here, mul_assoc, mul_comm _ root, root_mul_inv, mul_one]
    rw [sweepBackward, ih (by omega) step back (mulmod_lt _ _), cast_addmod, cast_mulmod,
      cast_mulmod, cast_mulmod, term, here, sum_range_succ]
    ring

theorem cast_squares (z k : Nat) :
    (((fun x => mulmod x x blsModulus)^[k] z : Nat) : Scalar) = (z : Scalar) ^ 2 ^ k := by
  induction k with
  | zero => simp
  | succ k ih =>
    rw [iterate_succ_apply', cast_mulmod, ih, ← pow_two, ← pow_mul, ← pow_succ]

/-- Fermat's little theorem for the exponent of the contract. -/
theorem cast_modexp (nonzero : (product : Scalar) ≠ 0) :
    (modexp product blsModulusMinusTwo : Scalar) = (product : Scalar)⁻¹ := by
  refine eq_inv_of_mul_eq_one_left ?_
  rw [modexp_eq (by decide), ZMod.natCast_mod, cast_pow, ← pow_succ]
  exact ZMod.pow_card_sub_one_eq_one nonzero

/-! ## The value of the polynomial -/

/-- The polynomial takes the values of the blob at the roots in bit-reversed order. -/
structure Interpolates (blob : Nat → BitVec 256) (p : Polynomial Scalar) : Prop where
  degree : p.degree < fieldElementsPerBlob
  values : ∀ i < fieldElementsPerBlob,
    p.eval (root ^ reverseBits 12 i) = ((blob i).toNat : Scalar)

theorem reverseBits_below (i : Nat) : reverseBits 12 i < fieldElementsPerBlob := reverseBits_lt 12 i

theorem Interpolates.eval_root (interpolates : Interpolates blob p)
    (below : i < fieldElementsPerBlob) :
    p.eval (root ^ i) = ((blob (bitReverse12 i)).toNat : Scalar) := by
  rw [bitReverse12_eq below, ← interpolates.values _ (reverseBits_below i),
    reverseBits_reverseBits below]

theorem exists_interpolates (blob : Nat → BitVec 256) :
    ∃ p, Interpolates blob p ∧ ∀ q, Interpolates blob q → q = p := by
  obtain ⟨p, ⟨degree, values⟩, unique⟩ := Barycentric.existsUnique_eval root_isPrimitiveRoot
    fun i => ((blob (bitReverse12 i)).toNat : Scalar)
  refine ⟨p, ⟨degree, fun i below => ?_⟩, fun q interpolates =>
    unique q interpolates.degree fun i below => interpolates.eval_root below⟩
  rw [values _ (reverseBits_below i), bitReverse12_eq (reverseBits_below i),
    reverseBits_reverseBits below]

/-- The value at a point that is not a root. -/
theorem cast_evaluateBlob (interpolates : Interpolates blob p)
    (done : Forward z fieldElementsPerBlob prefixes product) :
    (mulmod (sweepBackward blob z prefixes fieldElementsPerBlob
        (modexp product blsModulusMinusTwo) rootOfUnityInv 0)
      (mulmod (addmod ((fun x => mulmod x x blsModulus)^[12] z) (blsModulus - 1) blsModulus)
        invFieldElementsPerBlob blsModulus) blsModulus : Scalar) = p.eval (z : Scalar) := by
  have inverse : (modexp product blsModulusMinusTwo : Scalar) =
      (denominators z fieldElementsPerBlob)⁻¹ := by
    rw [← done.product]
    exact cast_modexp (done.product ▸ denominators_ne_zero done.apart)
  have last : (rootOfUnityInv : Scalar) * root = root ^ fieldElementsPerBlob := by
    rw [mul_comm, root_mul_inv, root_isPrimitiveRoot.pow_eq_one]
  have width : (z : Scalar) ^ 2 ^ 12 = (z : Scalar) ^ fieldElementsPerBlob := rfl
  have minusOne : ((blsModulus - 1 : Nat) : Scalar) = -1 := by
    rw [cast_sub (by decide), ZMod.natCast_self, cast_one, zero_sub]
  have terms : ∑ i ∈ range fieldElementsPerBlob,
        ((blob (bitReverse12 i)).toNat : Scalar) * root ^ i * (z - root ^ i)⁻¹ =
      ∑ i ∈ range fieldElementsPerBlob, p.eval (root ^ i) * root ^ i * (z - root ^ i)⁻¹ :=
    sum_congr rfl fun i inside => by
      rw [interpolates.eval_root (mem_range.mp inside)]
  rw [cast_mulmod, sweepBackward_spec done.apart done.prefixes le_rfl inverse last (by decide),
    terms, cast_mulmod, cast_addmod, cast_squares, width, minusOne, inv_width, ← sub_eq_add_neg,
    Barycentric.eval_eq root_isPrimitiveRoot (by decide) interpolates.degree done.apart,
    cast_zero, zero_add]

/-- `_evaluateBlob` returns the value of the polynomial.  The inversion is reached with no
    denominator at zero. -/
theorem evaluateBlob_spec (interpolates : Interpolates blob p)
    (elements : ∀ i < fieldElementsPerBlob, (blob i).toNat < blsModulus)
    (point : z < blsModulus) :
    evaluateBlob blob z < blsModulus ∧ (evaluateBlob blob z : Scalar) = p.eval (z : Scalar) ∧
      ∀ prefixes product,
        sweepForward z fieldElementsPerBlob 0 (fun _ => 0) 1 1 = .clear prefixes product →
          ∀ i < fieldElementsPerBlob, denominator z (rootOfUnity ^ i % blsModulus) ≠ 0 := by
  have start : Forward z 0 (fun _ => 0) 1 :=
    { product := by rw [cast_one, denominators, prod_range_zero]
      prefixes := fun j below => absurd below (not_lt_zero j)
      apart := fun j below => absurd below (not_lt_zero j) }
  have first : ((1 : Nat) : Scalar) = root ^ 0 := by rw [cast_one, pow_zero]
  have swept := sweepForward_spec point (n := fieldElementsPerBlob) start first (by decide)
  rw [zero_add] at swept
  obtain ⟨i, below, met, here⟩ | ⟨prefixes, product, ended, done⟩ := swept
  · have value : evaluateBlob blob z = (blob (bitReverse12 i)).toNat := by
      rw [evaluateBlob, met]
    rw [value, here, interpolates.eval_root below]
    refine ⟨elements _ ?_, rfl, fun prefixes product ended => ?_⟩
    · rw [bitReverse12_eq below]
      exact reverseBits_below i
    · rw [met] at ended
      cases ended
  · have value : evaluateBlob blob z = mulmod (sweepBackward blob z prefixes fieldElementsPerBlob
          (modexp product blsModulusMinusTwo) rootOfUnityInv 0)
        (mulmod (addmod ((fun x => mulmod x x blsModulus)^[12] z) (blsModulus - 1) blsModulus)
          invFieldElementsPerBlob blsModulus) blsModulus := by
      rw [evaluateBlob, ended]
    rw [value]
    refine ⟨mulmod_lt _ _, cast_evaluateBlob interpolates done, fun _ _ _ i below zero => ?_⟩
    have small : rootOfUnity ^ i % blsModulus < blsModulus := mod_lt _ (by decide)
    have gap := cast_denominator (z := z) small
    rw [zero, ZMod.natCast_mod, cast_pow, cast_zero] at gap
    exact done.apart i below (sub_eq_zero.mp gap.symm)

theorem evaluate_blob_correct (blob : Nat → BitVec 256) (z : Nat)
    (elements : ∀ i < fieldElementsPerBlob, (blob i).toNat < blsModulus)
    (point : z < blsModulus) :
    ∃ p, (Interpolates blob p ∧ ∀ q, Interpolates blob q → q = p) ∧
      evaluateBlob blob z < blsModulus ∧ (evaluateBlob blob z : Scalar) = p.eval (z : Scalar) ∧
      ∀ prefixes product,
        sweepForward z fieldElementsPerBlob 0 (fun _ => 0) 1 1 = .clear prefixes product →
          ∀ i < fieldElementsPerBlob, denominator z (rootOfUnity ^ i % blsModulus) ≠ 0 := by
  obtain ⟨p, interpolates, unique⟩ := exists_interpolates blob
  exact ⟨p, ⟨interpolates, unique⟩, evaluateBlob_spec interpolates elements point⟩

/-- A blob that counts, at a point that is no root. -/
theorem evaluate_blob_correct_counting :
    ∃ p, (Interpolates (BitVec.ofNat 256) p ∧ ∀ q,
      Interpolates (BitVec.ofNat 256) q → q = p) ∧
      evaluateBlob (BitVec.ofNat 256) 2 < blsModulus ∧
      (evaluateBlob (BitVec.ofNat 256) 2 : Scalar) = p.eval ((2 : Nat) : Scalar) := by
  have elements : ∀ i < fieldElementsPerBlob, (BitVec.ofNat 256 i).toNat < blsModulus := by
    intro i below
    have bound : i < 4096 := below
    rw [BitVec.toNat_ofNat]
    exact (Nat.mod_le _ _).trans_lt (bound.trans (by decide))
  obtain ⟨p, unique, small, value, -⟩ :=
    evaluate_blob_correct (BitVec.ofNat 256) 2 elements (by decide)
  exact ⟨p, unique, small, value⟩

end Intmax.Blob
