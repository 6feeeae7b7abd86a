import Mathlib.NumberTheory.LucasPrimality

/-! # Primes by Lucas' test

A certificate is an element and the factors of the order of the group: the element has that order,
because no power by a proper divisor of it is one.  The powers are computed by squaring.
-/

namespace Lucas

/-- A power modulo `m`, over the `bits` low bits of the exponent. -/
def powMod (m : Nat) : Nat → Nat → Nat → Nat
  | 0, _, _ => 1 % m
  | bits + 1, base, exponent =>
    let rest := powMod m bits (base * base % m) (exponent / 2)
    if exponent % 2 = 1 then rest * base % m else rest

theorem powMod_eq {m bits exponent : Nat} (fits : exponent < 2 ^ bits) (base : Nat) :
    powMod m bits base exponent = base ^ exponent % m := by
  induction bits generalizing base exponent with
  | zero =>
    have none : exponent = 0 := by simpa using fits
    rw [none, pow_zero]
    rfl
  | succ bits ih =>
    have half : exponent / 2 < 2 ^ bits := by
      rw [pow_succ] at fits
      omega
    have square : (base * base % m) ^ (exponent / 2) % m = base ^ (2 * (exponent / 2)) % m := by
      rw [← Nat.pow_mod, pow_mul, sq]
    simp only [powMod, ih half, square]
    split
    case isTrue odd =>
      rw [Nat.mod_mul_mod, ← pow_succ, show 2 * (exponent / 2) + 1 = exponent by omega]
    case isFalse even => rw [show 2 * (exponent / 2) = exponent by omega]

/-- A prime that divides a product of prime powers is one of the primes. -/
theorem mem_of_dvd_prod {factors : List (Nat × Nat)}
    (primes : ∀ factor ∈ factors, factor.1.Prime)
    {q : Nat} (prime : q.Prime) (divides : q ∣
      (factors.map fun factor => factor.1 ^ factor.2).prod) :
    ∃ factor ∈ factors, factor.1 = q := by
  rw [prime.prime.dvd_prod_iff] at divides
  obtain ⟨power, listed, divides⟩ := divides
  obtain ⟨factor, member, rfl⟩ := List.mem_map.mp listed
  have same := (Nat.prime_dvd_prime_iff_eq prime (primes factor member)).mp
    (prime.dvd_of_dvd_pow divides)
  exact ⟨factor, member, same.symm⟩

theorem prime_of_factors {p : Nat} (bits g : Nat) {factors : List (Nat × Nat)} (large : 1 < p)
    (fits : p ≤ 2 ^ bits) (primes : ∀ factor ∈ factors, factor.1.Prime)
    (product : (factors.map fun factor => factor.1 ^ factor.2).prod = p - 1)
    (one : powMod p bits g (p - 1) = 1)
    (proper : ∀ factor ∈ factors, powMod p bits g ((p - 1) / factor.1) ≠ 1) : p.Prime := by
  have power {n : Nat} (below : n < p) : ((g : Nat) : ZMod p) ^ n = 1 ↔
      powMod p bits g n = 1 := by
    rw [powMod_eq (below.trans_le fits), ← Nat.cast_pow, ← Nat.cast_one,
      ZMod.natCast_eq_natCast_iff', Nat.mod_eq_of_lt large]
  refine lucas_primality p ((g : Nat) : ZMod p) ?_ fun q prime divides => ?_
  · rw [power (by omega)]
    exact one
  · rw [Ne, power ((Nat.div_le_self _ _).trans_lt (by omega))]
    obtain ⟨factor, member, rfl⟩ := mem_of_dvd_prod primes prime (product ▸ divides)
    exact proper factor member

end Lucas
