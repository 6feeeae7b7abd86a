import Mathlib.LinearAlgebra.Lagrange
import Mathlib.RingTheory.RootsOfUnity.PrimitiveRoots

/-! # Interpolation on the powers of a root of unity

A polynomial of degree below `n` is determined by its values at the powers of a primitive `n`-th
root of unity `ω`.  Away from those powers its value is the barycentric sum.
-/

namespace Barycentric

open Polynomial Finset Lagrange

variable {F : Type*} [Field F] {ω : F} {n : ℕ}

theorem pow_injOn (root : IsPrimitiveRoot ω n) : Set.InjOn (fun i : ℕ => ω ^ i) (range n) := by
  intro i below j below' same
  rw [mem_coe, mem_range] at below below'
  exact root.pow_inj below below' same

/-- The polynomial with those roots. -/
theorem nodal_pow (root : IsPrimitiveRoot ω n) (positive : 0 < n) :
    nodal (range n) (fun i => ω ^ i) = X ^ n - 1 := by
  have smaller : degree (1 : F[X]) < degree ((X : F[X]) ^ n) := by simp [positive]
  -- Both are monic of degree `n` and vanish at the same `n` points.
  apply eq_of_degree_le_of_eval_index_eq (range n) (pow_injOn root)
  · simp
  · rw [degree_sub_eq_left_of_degree_lt smaller, degree_nodal, card_range, degree_pow, degree_X,
      nsmul_eq_mul, mul_one]
  · rw [nodal_monic, leadingCoeff_sub_of_degree_lt smaller, monic_X_pow]
  · intro i inside
    have one : (ω ^ i) ^ n = 1 := by rw [← pow_mul, mul_comm, pow_mul, root.pow_eq_one, one_pow]
    rw [eval_nodal_at_node inside, eval_sub, eval_pow, eval_X, eval_one, one, sub_self]

theorem nodalWeight_pow (root : IsPrimitiveRoot ω n) {i : ℕ} (below : i < n) :
    nodalWeight (range n) (fun i => ω ^ i) i = ω ^ i * (n : F)⁻¹ := by
  have positive : 0 < n := by omega
  have last : (ω ^ i) ^ (n - 1) = (ω ^ i)⁻¹ := by
    refine eq_inv_of_mul_eq_one_left ?_
    rw [← pow_succ, Nat.sub_add_cancel positive, ← pow_mul, mul_comm, pow_mul, root.pow_eq_one,
      one_pow]
  rw [nodalWeight_eq_eval_derivative_nodal (mem_range.mpr below), nodal_pow root positive,
    derivative_sub, derivative_X_pow, derivative_one, sub_zero, eval_mul, eval_C, eval_pow, eval_X,
    last, mul_inv, inv_inv, mul_comm]

/-- The value of a polynomial away from the powers of the root. -/
theorem eval_eq (root : IsPrimitiveRoot ω n) (positive : 0 < n) {p : F[X]} (small : p.degree < n)
    {z : F} (apart : ∀ i < n, z ≠ ω ^ i) :
    p.eval z = (∑ i ∈ range n, p.eval (ω ^ i) * ω ^ i * (z - ω ^ i)⁻¹) *
      ((z ^ n - 1) * (n : F)⁻¹) := by
  have interpolated : p = interpolate (range n) (fun i => ω ^ i) fun i => p.eval (ω ^ i) :=
    eq_interpolate (pow_injOn root) (by rwa [card_range])
  have away : ∀ i ∈ range n, z ≠ ω ^ i := fun i inside => apart i (mem_range.mp inside)
  conv_lhs => rw [interpolated]
  rw [eval_interpolate_not_at_node _ away, nodal_pow root positive, eval_sub, eval_pow, eval_X,
    eval_one, sum_mul, mul_sum]
  refine sum_congr rfl fun i inside => ?_
  rw [nodalWeight_pow root (mem_range.mp inside)]
  ring

/-- There is one polynomial of degree below `n` with given values at the powers. -/
theorem existsUnique_eval (root : IsPrimitiveRoot ω n) (values : ℕ → F) :
    ∃ p : F[X], (p.degree < n ∧ ∀ i < n, p.eval (ω ^ i) = values i) ∧
      ∀ q : F[X], q.degree < n → (∀ i < n, q.eval (ω ^ i) = values i) → q = p := by
  refine ⟨interpolate (range n) (fun i => ω ^ i) values, ⟨?_, fun i below => ?_⟩,
    fun q small agrees => ?_⟩
  · have bound := degree_interpolate_lt values (pow_injOn root)
    rwa [card_range] at bound
  · exact eval_interpolate_at_node values (pow_injOn root) (mem_range.mpr below)
  · exact eq_interpolate_of_eval_eq values (pow_injOn root) (by rwa [card_range])
      fun i inside => agrees i (mem_range.mp inside)

end Barycentric
