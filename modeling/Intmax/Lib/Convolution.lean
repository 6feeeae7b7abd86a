import Mathlib.Algebra.Order.Ring.Abs
import Mathlib.Algebra.Polynomial.RingDivision
import Mathlib.Tactic.LinearCombination

/-! # Products modulo `X ^ n + 1` as sums

The coefficients of a product of two arrays modulo `X ^ n + 1`, written out: what reaches `X ^ n`
comes back with its sign changed.  The sum is the remainder of the product of the polynomials, so
the products of arrays form a commutative ring with the sums; and over the integers it is bounded
by the bounds of its factors.
-/

namespace Negacyclic

open Finset Polynomial

variable {R : Type} [CommRing R]

/-- The polynomial with the coefficients of an array. -/
noncomputable def polynomial (n : Nat) (a : Nat → R) : R[X] := ∑ i ∈ range n, C (a i) * X ^ i

theorem coeff_polynomial (n : Nat) (a : Nat → R) (i : Nat) :
    (polynomial n a).coeff i = if i < n then a i else 0 := by
  simp only [polynomial, finsetSum_coeff, coeff_C_mul_X_pow]
  rw [sum_ite_eq]
  simp only [mem_range]

theorem polynomial_congr {n : Nat} {a b : Nat → R} (same : ∀ i < n, a i = b i) :
    polynomial n a = polynomial n b :=
  sum_congr rfl fun i member => by rw [same i (mem_range.mp member)]

theorem polynomial_coeff {n : Nat} {p : R[X]} (small : p.degree < n) :
    polynomial n p.coeff = p := by
  ext i
  rw [coeff_polynomial]
  split
  · rfl
  · exact (coeff_eq_zero_of_degree_lt (small.trans_le
      (by exact_mod_cast le_of_not_gt ‹_›))).symm

/-- Coefficient `i` of the product of two arrays of `n` coefficients modulo `X ^ n + 1`. -/
def product (n : Nat) (a b : Nat → R) (i : Nat) : R :=
  ∑ m ∈ range n, if m ≤ i then a m * b (i - m) else -(a m * b (n + i - m))

variable {n : Nat} {a b c : Nat → R} {i : Nat}

theorem product_congr {a' b' : Nat → R} (left : ∀ i < n, a i = a' i)
    (right : ∀ i < n, b i = b' i) (below : i < n) : product n a b i = product n a' b' i := by
  refine sum_congr rfl fun m member => ?_
  rw [mem_range] at member
  split
  · rw [left m member, right (i - m) (by omega)]
  · rw [left m member, right (n + i - m) (by omega)]

theorem product_add_left : product n (fun i => a i + b i) c i =
    product n a c i + product n b c i := by
  rw [product, product, product, ← sum_add_distrib]
  refine sum_congr rfl fun m _ => ?_
  split <;> ring

/-- A ring homomorphism goes through a product. -/
theorem product_map {S : Type} [CommRing S] (φ : R →+* S) (a b : Nat → R) (i : Nat) :
    φ (product n a b i) = product n (fun i => φ (a i)) (fun i => φ (b i)) i := by
  rw [product, map_sum, product]
  refine sum_congr rfl fun m _ => ?_
  split <;> simp

/-! ## The product is a remainder -/

/-- A polynomial of degree below `2 n` is folded once. -/
theorem mod_coeff {p : R[X]} (small : p.degree < (2 * n : Nat)) (below : i < n) :
    (p %ₘ (X ^ n + 1)).coeff i = p.coeff i - p.coeff (n + i) := by
  nontriviality R
  have positive : n ≠ 0 := by omega
  have monic : (X ^ n + 1 : R[X]).Monic := monic_X_pow_add_C (1 : R) positive
  have degree : (X ^ n + 1 : R[X]).degree = n :=
    degree_X_pow_add_C (pos_of_ne_zero positive) (1 : R)
  set folded := polynomial n fun i => p.coeff i - p.coeff (n + i) with isFolded
  set high := polynomial n fun i => p.coeff (n + i) with isHigh
  -- The coefficients from `n` on are moved down and subtracted.
  have split : p = folded + (X ^ n + 1) * high := by
    ext j
    rw [add_mul, one_mul, coeff_add, coeff_add, coeff_X_pow_mul', isFolded, isHigh,
      coeff_polynomial, coeff_polynomial, coeff_polynomial]
    by_cases low : j < n
    · rw [if_pos low, if_neg (not_le.mpr low), if_pos low]
      ring
    · rw [if_neg low, if_pos (le_of_not_gt low), if_neg low]
      split
      · rw [show n + (j - n) = j by omega]
        ring
      · rw [coeff_eq_zero_of_degree_lt (small.trans_le (by exact_mod_cast (by omega)))]
        ring
  have reduced : folded.degree < (X ^ n + 1 : R[X]).degree := by
    rw [degree, degree_lt_iff_coeff_zero]
    intro m large
    rw [isFolded, coeff_polynomial, if_neg (not_lt.mpr large)]
  have rest : (p - folded) = (X ^ n + 1) * high := by
    linear_combination split
  rw [modByMonic_eq_of_dvd_sub monic ⟨high, rest⟩, (modByMonic_eq_self_iff monic).mpr reduced,
    isFolded, coeff_polynomial, if_pos below]

theorem coeff_polynomial_mul (p : R[X]) (j : Nat) :
    (polynomial n a * p).coeff j = ∑ m ∈ range n,
      if m ≤ j then a m * p.coeff (j - m) else 0 := by
  rw [polynomial, sum_mul, finsetSum_coeff]
  refine sum_congr rfl fun m _ => ?_
  rw [mul_assoc, coeff_C_mul, coeff_X_pow_mul']
  split <;> simp

theorem degree_polynomial_mul : (polynomial n a * polynomial n b).degree < (2 * n : Nat) := by
  rw [degree_lt_iff_coeff_zero]
  intro j large
  rw [coeff_polynomial_mul]
  refine sum_eq_zero fun m member => ?_
  rw [mem_range] at member
  rw [coeff_polynomial, if_neg (show ¬j - m < n by omega), mul_zero, ite_self]

/-- The sum is the coefficient of the remainder. -/
theorem product_eq (below : i < n) :
    product n a b i = ((polynomial n a * polynomial n b) %ₘ (X ^ n + 1)).coeff i := by
  rw [mod_coeff degree_polynomial_mul below, coeff_polynomial_mul, coeff_polynomial_mul, product,
    ← sum_sub_distrib]
  refine sum_congr rfl fun m member => ?_
  rw [mem_range] at member
  rw [coeff_polynomial, coeff_polynomial, if_pos (show m ≤ n + i by omega)]
  by_cases low : m ≤ i
  · rw [if_pos low, if_pos low, if_pos (by omega), if_neg (by omega)]
    ring
  · rw [if_neg low, if_neg low, if_pos (by omega)]
    ring

theorem polynomial_product :
    polynomial n (product n a b) = (polynomial n a * polynomial n b) %ₘ (X ^ n + 1) := by
  nontriviality R
  by_cases empty : n = 0
  · subst empty
    simp [polynomial]
  · have monic : (X ^ n + 1 : R[X]).Monic := monic_X_pow_add_C (1 : R) empty
    have degree : (X ^ n + 1 : R[X]).degree = n := degree_X_pow_add_C (pos_of_ne_zero empty) (1 : R)
    rw [polynomial_congr fun i below => product_eq below, polynomial_coeff]
    rw [← degree]
    exact degree_modByMonic_lt _ monic

/-- Two factors that are multiplied in one after the other can change places. -/
theorem product_right_comm (below : i < n) :
    product n (product n a b) c i = product n (product n a c) b i := by
  have reduce (p q : R[X]) :
      (p %ₘ (X ^ n + 1) * q) %ₘ (X ^ n + 1) = (p * q) %ₘ (X ^ n + 1) := by
    have monic : (X ^ n + 1 : R[X]).Monic := monic_X_pow_add_C (1 : R) (by omega)
    refine modByMonic_eq_of_dvd_sub monic ⟨-(p /ₘ (X ^ n + 1)) * q, ?_⟩
    have divided := modByMonic_add_div p (X ^ n + 1 : R[X])
    linear_combination q * divided
  rw [product_eq below, product_eq below, polynomial_product, polynomial_product, reduce, reduce,
    mul_right_comm]

/-! ## The bound of a product -/

theorem abs_product_le {a b : Nat → Int} {A B : Int} (left : ∀ i, |a i| ≤ A)
    (right : ∀ i, |b i| ≤ B) (i : Nat) : |product n a b i| ≤ n * (A * B) := by
  have nonneg : 0 ≤ A := (abs_nonneg (a 0)).trans (left 0)
  have term (m : Nat) : |if m ≤ i then a m * b (i - m)
      else -(a m * b (n + i - m))| ≤ A * B := by
    split
    · rw [abs_mul]
      exact mul_le_mul (left _) (right _) (abs_nonneg _) nonneg
    · rw [abs_neg, abs_mul]
      exact mul_le_mul (left _) (right _) (abs_nonneg _) nonneg
  calc |product n a b i|
      ≤ ∑ m ∈ range n, |if m ≤ i then a m * b (i - m) else -(a m * b (n + i - m))| :=
        abs_sum_le_sum_abs _ _
    _ ≤ ∑ _m ∈ range n, A * B := sum_le_sum fun m _ => term m
    _ = n * (A * B) := by rw [sum_const, card_range, nsmul_eq_mul]

end Negacyclic
