import Mathlib.Algebra.Order.BigOperators.Group.Finset
import Mathlib.Data.Fintype.BigOperators

/-! # Ledgers over finitely many accounts

A ledger is a function from accounts to entries, and what it holds is the sum of
a measure of its entries.  Writing one entry changes the sum by the difference of
the two measures; over the naturals that is the balanced equation
`sum_update_add`, from which every "moved from one pot to another" argument is
linear arithmetic.
-/

namespace Ledger

open Function

variable {ι α : Type} [Fintype ι]

/-- What a ledger holds under the measure `μ` of one entry. -/
def total (μ : α → Nat) (f : ι → α) : Nat := ∑ i, μ (f i)

theorem total_const_zero (μ : α → Nat) {x : α} (zero : μ x = 0) :
    total μ (fun _ : ι => x) = 0 := by
  simp [total, zero]

variable [DecidableEq ι]

theorem total_eq_add_erase (μ : α → Nat) (f : ι → α) (a : ι) :
    total μ f = μ (f a) + ∑ i ∈ Finset.univ.erase a, μ (f i) :=
  (Finset.add_sum_erase Finset.univ (fun i => μ (f i)) (Finset.mem_univ a)).symm

/-- Writing one entry exchanges its old measure for its new one. -/
theorem total_update_add (μ : α → Nat) (f : ι → α) (a : ι) (x : α) :
    total μ (update f a x) + μ (f a) = total μ f + μ x := by
  have others : ∑ i ∈ Finset.univ.erase a, μ (update f a x i) =
      ∑ i ∈ Finset.univ.erase a, μ (f i) := by
    apply Finset.sum_congr rfl
    intro i member
    rw [update_of_ne (Finset.ne_of_mem_erase member)]
  rw [total_eq_add_erase μ (update f a x) a, total_eq_add_erase μ f a, others, update_self]
  omega

/-- An entry never measures more than the whole ledger. -/
theorem le_total (μ : α → Nat) (f : ι → α) (a : ι) : μ (f a) ≤ total μ f := by
  rw [total_eq_add_erase μ f a]
  omega

end Ledger
