import Intmax.Regev.Scheme

/-! # What a ciphertext carries

Under a secret `s` the phase of a ciphertext is `c2 - c1 * s`.  The phase of an encryption is its
message times `Δ` plus a noise that is bounded whatever was sampled, for every secret that the key
admits.  Phases add up under `add_ciphertexts`.
-/

namespace Intmax.Regev

open List hiding sum_range_succ
open Channel Checked Validity Negacyclic Finset

/-! ## Canonical polynomials -/

/-- `n` coefficients below `q`. -/
def IsCanonical (xs : List (BitVec 32)) : Prop :=
  xs.length = regevN ∧ ∀ x ∈ xs, x.toNat < regevQ

variable {ct : RegevCiphertext} {pk : RegevPk} {xs ys : List (BitVec 32)} {i : Nat}
  {amount : BitVec 64} {fullPolyMul : List F → List F → List F}

/-- The check that keys and ciphertexts share, with its two errors. -/
theorem canonical_checked {sizes : RegevError} {large : BitVec 32 → RegevError} :
    (do revertIf (xs.length ≠ regevN ∨ ys.length ≠ regevN) sizes
        match (xs ++ ys).find? fun (c : BitVec 32) => decide (regevQ ≤ c.toNat) with
        | some c => .error (large c)
        | none => .ok ()) = .ok () ↔ IsCanonical xs ∧ IsCanonical ys := by
  simp only [bind_ok, revertIf_ok, exists_unit, not_or, not_not, IsCanonical]
  cases found : (xs ++ ys).find? fun c => decide (regevQ ≤ c.toNat) with
  | some c =>
    have member := mem_append.mp (mem_of_find?_eq_some found)
    have large := find?_some found
    rw [decide_eq_true_eq] at large
    simp only [reduceCtorEq, and_false, false_iff]
    rintro ⟨⟨-, left⟩, -, right⟩
    exact absurd large (not_le.mpr (member.elim (left c) (right c)))
  | none =>
    simp only [find?_eq_none, mem_append, decide_eq_true_eq, not_le] at found
    simp only [and_true]
    exact ⟨fun sizes => ⟨⟨sizes.1, fun x member => found x (.inl member)⟩, sizes.2,
      fun x member => found x (.inr member)⟩, fun all => ⟨all.1.1, all.2.1⟩⟩

theorem validate_ciphertext_iff : ct.validate = .ok () ↔ IsCanonical ct.c1 ∧
    IsCanonical ct.c2 :=
  canonical_checked

theorem validate_key_iff : validateRegevPk pk = .ok () ↔ IsCanonical pk.a ∧ IsCanonical pk.b :=
  canonical_checked

theorem IsCanonical.fromUpstream {xs : List F} (size : xs.length = regevN) :
    IsCanonical (fromUpstream xs) := by
  refine ⟨by rw [Regev.fromUpstream, length_map, size], fun x member => ?_⟩
  obtain ⟨y, -, rfl⟩ := mem_map.mp member
  exact (Nat.mod_le _ _).trans_lt (ZMod.val_lt y)

theorem poly_val (canonical : IsCanonical xs) (below : i < regevN) :
    (poly xs i).val = (xs.getD i 0).toNat := by
  have inside : i < xs.length := canonical.1.symm ▸ below
  have small := canonical.2 _ (getElem_mem inside)
  simp [poly, coefficients, toUpstream, getD, getElem?_eq_getElem inside]
  exact ZMod.val_cast_of_lt small

/-- Canonical polynomials are equal when their coefficients are. -/
theorem IsCanonical.ext (left : IsCanonical xs) (right : IsCanonical ys)
    (same : ∀ i < regevN, poly xs i = poly ys i) : xs = ys := by
  refine ext_getElem (left.1.trans right.1.symm) fun i inside inside' => ?_
  have below : i < regevN := left.1 ▸ inside
  have value := congrArg ZMod.val (same i below)
  rw [poly_val left below, poly_val right below] at value
  simp [getD, getElem?_eq_getElem inside, getElem?_eq_getElem inside'] at value
  exact BitVec.eq_of_toNat_eq value

theorem IsCanonical.addPolynomials (left : IsCanonical xs) (right : IsCanonical ys) :
    IsCanonical (addPolynomials xs ys) := by
  refine ⟨by rw [Channel.addPolynomials, length_zipWith, left.1, right.1, min_self], ?_⟩
  intro z member
  obtain ⟨i, inside, rfl⟩ := mem_iff_getElem.mp member
  simp [Channel.addPolynomials]
  exact (Nat.mod_le _ _).trans_lt (Nat.mod_lt _ (by decide))

theorem poly_addPolynomials (left : IsCanonical xs) (right : IsCanonical ys) (below : i < regevN) :
    poly (addPolynomials xs ys) i = poly xs i + poly ys i := by
  have inside : i < xs.length := left.1.symm ▸ below
  have inside' : i < ys.length := right.1.symm ▸ below
  have small : (xs[i].toNat + ys[i].toNat) % regevQ < 2 ^ 32 :=
    (Nat.mod_lt _ (by decide)).trans (by decide)
  simp only [poly, coefficients, toUpstream, addPolynomials, getD, getElem?_map,
    getElem?_zipWith, getElem?_eq_getElem inside, getElem?_eq_getElem inside',
    Option.map_some, Option.getD_some, BitVec.toNat_ofNat, Nat.mod_eq_of_lt small]
  rw [ZMod.natCast_mod, Nat.cast_add]

/-! ## Phases -/

/-- `c2 - c1 * s` modulo `X ^ n + 1`. -/
def phase (s : Nat → Int) (ct : RegevCiphertext) (i : Nat) : F :=
  poly ct.c2 i - product regevN (poly ct.c1) (fun i => (s i : F)) i

theorem phase_add {s : Nat → Int} {ct' : RegevCiphertext} (first : IsCanonical ct.c1)
    (second : IsCanonical ct.c2) (first' : IsCanonical ct'.c1) (second' : IsCanonical ct'.c2)
    (below : i < regevN) :
    phase s ⟨addPolynomials ct.c1 ct'.c1, addPolynomials ct.c2 ct'.c2⟩ i =
      phase s ct i + phase s ct' i := by
  have sum := product_congr (fun i below => poly_addPolynomials first first' below)
    (fun i _ => rfl : ∀ i < regevN, (s i : F) = s i) below
  rw [phase, phase, phase, poly_addPolynomials second second' below, sum, product_add_left]
  ring

/-- Decryption rounds the phase. -/
theorem decrypt_eq (exactly : IsFullProduct fullPolyMul) {sk : RegevSk}
    (secret : sk.s.length = regevN) (first : ct.c1.length = regevN)
    (second : ct.c2.length = regevN) :
    decrypt fullPolyMul sk ct =
      (List.range regevN).map fun i => digitOf (phase (entries sk.s) ct i).val := by
  simp only [decrypt, splitNegacyclic_small exactly ((length_toUpstream ct.c1).trans first) secret]
  refine List.ext_getElem (by simp [length_toUpstream, second]) fun i inside inside' => ?_
  have below : i < ct.c2.length := by
    rw [second]
    simpa using inside'
  simp [phase, poly, coefficients, toUpstream, getD, below]

/-! ## Secrets of a key -/

/-- A ternary secret that a key admits: `b - a * s` is small. -/
structure Opens (pk : RegevPk) (s : Nat → Int) : Prop where
  ternary : ∀ i, |s i| ≤ 1
  noise : ∃ e : Nat → Int, (∀ i, |e i| ≤ 2) ∧ ∀ i < regevN,
    poly pk.b i = product regevN (poly pk.a) (fun i => (s i : F)) i + e i

theorem IsKeyPair.opens (exactly : IsFullProduct fullPolyMul) {sk : RegevSk}
    (pair : IsKeyPair fullPolyMul pk sk) : Opens pk (entries sk.s) := by
  obtain ⟨a, eu, ev, size, ternary, halfU, halfV, made⟩ := pair
  simp [channelKeygen, keygen, splitNegacyclic_small exactly size ternary.1] at made
  obtain ⟨rfl, -⟩ := made
  refine ⟨abs_entries_le ternary, Regev.noise eu ev, abs_noise_le halfU halfV,
    fun i below => ?_⟩
  rw [poly_fromUpstream, poly_fromUpstream, coefficients_add_noise halfU halfV below]

/-! ## Encryptions -/

/-- Bit `i` of an amount. -/
def bit (amount : BitVec 64) (i : Nat) : Nat := amount.toNat / 2 ^ i % 2

theorem bit_le (amount : BitVec 64) (i : Nat) : bit amount i ≤ 1 := by
  rw [bit]
  omega

theorem bit_of_le (amount : BitVec 64) (large : 64 ≤ i) : bit amount i = 0 := by
  have small : amount.toNat < 2 ^ i := amount.isLt.trans_le (Nat.pow_le_pow_right (by decide) large)
  rw [bit, Nat.div_eq_of_lt small]

theorem sum_bit (amount : BitVec 64) : ∑ i ∈ range 64, bit amount i * 2 ^ i = amount.toNat := by
  have low (k : Nat) : ∑ i ∈ range k, bit amount i * 2 ^ i = amount.toNat % 2 ^ k := by
    induction k with
    | zero => simp [Nat.mod_one]
    | succ k ih => rw [sum_range_succ, ih, bit, Nat.mod_pow_succ, mul_comm (2 ^ k)]
  rw [low, Nat.mod_eq_of_lt amount.isLt]

theorem encodedBit_toNat (amount : BitVec 64) (i : Nat) :
    (if i < 64 then ((amount >>> i) &&& 1#64).setWidth 8 else 0#8).toNat = bit amount i := by
  split
  · have low : amount.toNat / 2 ^ i % 2 < 2 ^ 8 := by omega
    rw [BitVec.toNat_setWidth, BitVec.toNat_and, BitVec.toNat_ushiftRight,
      Nat.shiftRight_eq_div_pow,
      show (1#64).toNat = 1 from rfl, Nat.and_one_is_mod, Nat.mod_eq_of_lt low, bit]
  · rw [bit_of_le amount (by omega)]
    rfl

theorem encodeAmount_getElem (inside : i < (encodeAmount amount).length) :
    (encodeAmount amount)[i].toNat = bit amount i := by
  simp only [encodeAmount, encodeValueMessage, getElem_map, getElem_range]
  exact encodedBit_toNat amount i

/-- The equations of an encryption. -/
structure Sealed (pk : RegevPk) (amount : BitVec 64) (ct : RegevCiphertext)
    (r e1 e2 : Nat → Int) :
    Prop where
  ternary : ∀ i, |r i| ≤ 1
  small1 : ∀ i, |e1 i| ≤ 2
  small2 : ∀ i, |e2 i| ≤ 2
  first : ∀ i < regevN, poly ct.c1 i = product regevN (poly pk.a) (fun i => (r i : F)) i + e1 i
  second : ∀ i < regevN, poly ct.c2 i =
    product regevN (poly pk.b) (fun i => (r i : F)) i + e2 i + regevDelta * bit amount i

theorem length_encodeAmount : (encodeAmount amount).length = regevN := by
  rw [encodeAmount, encodeValueMessage, length_map, length_range]

theorem IsEncryption.canonical (encrypted : IsEncryption fullPolyMul pk amount ct) :
    IsCanonical ct.c1 ∧ IsCanonical ct.c2 := by
  obtain ⟨samples, wellFormed, witness, made⟩ := encrypted
  simp only [encryptAmount, toUpstreamPk, bind_ok, pure_ok, encrypt, Prod.mk.injEq] at made
  obtain ⟨-, -, rfl, -⟩ := made
  simp only [fromUpstreamCt]
  constructor
  · refine IsCanonical.fromUpstream ?_
    rw [length_zipWith, length_cbdToField wellFormed.e1u wellFormed.e1v, splitNegacyclic,
      length_map, length_range, min_self]
  · refine IsCanonical.fromUpstream ?_
    rw [length_zipWith, length_zipWith, length_cbdToField wellFormed.e2u wellFormed.e2v,
      splitNegacyclic, length_map, length_range, length_encodeAmount, min_self, min_self]

theorem IsEncryption.sealed (exactly : IsFullProduct fullPolyMul)
    (encrypted : IsEncryption fullPolyMul pk amount ct) :
    ∃ r e1 e2, Sealed pk amount ct r e1 e2 := by
  obtain ⟨samples, wellFormed, witness, made⟩ := encrypted
  simp only [encryptAmount, toUpstreamPk, bind_ok, pure_ok, exists_unit, encrypt,
    Prod.mk.injEq] at made
  obtain ⟨-, ⟨valid, rfl⟩, rfl, -⟩ := made
  obtain ⟨canonicalA, canonicalB⟩ := validate_key_iff.mp valid
  have splitA := splitNegacyclic_small exactly ((length_toUpstream pk.a).trans canonicalA.1)
    wellFormed.r.1
  have splitB := splitNegacyclic_small exactly ((length_toUpstream pk.b).trans canonicalB.1)
    wellFormed.r.1
  refine ⟨entries samples.r, noise samples.e1u samples.e1v, noise samples.e2u samples.e2v,
    abs_entries_le wellFormed.r, abs_noise_le wellFormed.e1u wellFormed.e1v,
    abs_noise_le wellFormed.e2u wellFormed.e2v, fun i below => ?_, fun i below => ?_⟩
  · simp only [fromUpstreamCt, splitA, poly_fromUpstream]
    exact coefficients_add_noise wellFormed.e1u wellFormed.e1v below
  · have inMessage : i < (encodeAmount amount).length := length_encodeAmount.symm ▸ below
    have inSum : i < (List.zipWith (· + ·) ((List.range regevN).map
        (product regevN (coefficients (toUpstream pk.b)) fun i => (entries samples.r i : F)))
        (cbdToField samples.e2u samples.e2v)).length := by
      rw [length_zipWith, length_cbdToField wellFormed.e2u wellFormed.e2v, length_map,
        length_range, min_self]
      exact below
    simp only [fromUpstreamCt, splitB, poly_fromUpstream]
    rw [coefficients_zipWith inSum inMessage, coefficients_getElem inSum,
      coefficients_add_noise wellFormed.e2u wellFormed.e2v below, encodeAmount_getElem]
    rfl

/-- Encryption under a valid key returns. -/
theorem encryptAmount_eq (samples : Samples) (valid : validateRegevPk pk = .ok ()) :
    encryptAmount fullPolyMul samples pk amount =
      .ok (fromUpstreamCt (encrypt fullPolyMul samples ⟨toUpstream pk.a, toUpstream pk.b⟩
        (encodeAmount amount)).1, ⟨amount, (encrypt fullPolyMul samples
          ⟨toUpstream pk.a, toUpstream pk.b⟩ (encodeAmount amount)).2⟩) := by
  simp only [encryptAmount, toUpstreamPk, valid]
  rfl

/-! ## The padding ciphertext -/

theorem splitNegacyclic_zero (exactly : IsFullProduct fullPolyMul) {a : List F}
    (size : a.length = regevN) :
    splitNegacyclic (fullPolyMul a (replicate regevN 0)) regevN =
      (replicate regevN 0, replicate regevN 0) := by
  have none : polynomial regevN (coefficients (replicate regevN 0)) = 0 := by
    ext i
    simp only [coeff_polynomial, coefficients, getD, getElem?_replicate]
    split <;> rfl
  have zeros (i : Nat) : (fullPolyMul a (replicate regevN 0)).getD i 0 = 0 := by
    by_cases inside : i < 2 * regevN
    · have coeff := exactly.coeff a (replicate regevN 0) size length_replicate i inside
      rwa [none, mul_zero, Polynomial.coeff_zero] at coeff
    · rw [getD, getElem?_eq_none, Option.getD_none]
      rw [exactly.length a _ size length_replicate]
      omega
  simp only [splitNegacyclic, zeros, sub_zero, map_const', length_range]

/-- Under every canonical key the padding ciphertext is the encryption of zero without noise, and
    its witness is the public one. -/
theorem encryptAmount_zero (exactly : IsFullProduct fullPolyMul)
    (valid : validateRegevPk pk = .ok ()) :
    encryptAmount fullPolyMul zeroSamples pk 0 =
      .ok (RegevCiphertext.padding, zeroAmountWitness) := by
  obtain ⟨canonicalA, canonicalB⟩ := validate_key_iff.mp valid
  have small (n : Nat) : smallToField (replicate n 0) = replicate n 0 := by
    simp [smallToField, centeredToField]
  have noise (n : Nat) : cbdToField (replicate n 0) (replicate n 0) = replicate n 0 := by
    simp [cbdToField, centeredToField]
  have message : encodeAmount 0 = replicate regevN 0 := by
    simp [encodeAmount, encodeValueMessage]
  rw [encryptAmount_eq zeroSamples valid]
  simp only [encrypt, zeroSamples, small, noise, message, fromUpstreamCt,
    splitNegacyclic_zero exactly ((length_toUpstream _).trans canonicalA.1),
    splitNegacyclic_zero exactly ((length_toUpstream _).trans canonicalB.1)]
  simp [fromUpstream, RegevCiphertext.padding, zeroAmountWitness, zeroSamples]

end Intmax.Regev
