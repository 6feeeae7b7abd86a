import Intmax.Regev.Phase

/-! # Sums of encryptions decrypt to the sum of the amounts

A sum of at most 65 encryptions carries in each coefficient a digit of at most 65 and a noise far
below half a step, so rounding gives the digits back and the weights `2 ^ i` recombine them.
-/

namespace Intmax.Regev

open List hiding sum_range_succ
open Channel Checked Validity Negacyclic Finset

/-- The noise that one encryption adds to a coefficient. -/
def noiseBound : Nat := 4 * regevN + 2

/-- A canonical ciphertext whose phase under `s` is that of `count` encryptions of amounts that add
    up to `amount`. -/
structure Carries (s : Nat → Int) (ct : RegevCiphertext) (count amount : Nat) : Prop where
  first : IsCanonical ct.c1
  second : IsCanonical ct.c2
  digits : ∃ (digit : Nat → Nat) (noise : Nat → Int), (∀ i, digit i ≤ count) ∧
    (∀ i, 64 ≤ i → digit i = 0) ∧ ∑ i ∈ range 64, digit i * 2 ^ i = amount ∧
    (∀ i < regevN, |noise i| ≤ count * noiseBound) ∧
    ∀ i < regevN, phase s ct i = ((regevDelta * digit i + noise i : Int) : F)

variable {s : Nat → Int} {ct ct' : RegevCiphertext} {count count' amount amount' : Nat}

/-! ## One encryption -/

variable {pk : RegevPk} {n : Nat} {cts : List RegevCiphertext}
  {fullPolyMul : List F → List F → List F}

variable {value : BitVec 64} {digit : Nat → Nat} {cts' : List RegevCiphertext}

/-- The noise of an encryption: `e * r - e1 * s + e2`. -/
theorem phase_of_sealed {r e e1 e2 : Nat → Int}
    (key : ∀ i < regevN, poly pk.b i = product regevN (poly pk.a) (fun i => (s i : F)) i + e i)
    (encrypted : Sealed pk value ct r e1 e2) {i : Nat} (below : i < regevN) :
    phase s ct i = ((regevDelta * bit value i +
      (product regevN e r i - product regevN e1 s i + e2 i) : Int) : F) := by
  have mask : product regevN (poly pk.b) (fun i => (r i : F)) i =
      product regevN (product regevN (poly pk.a) fun i => (s i : F)) (fun i => (r i : F)) i +
        product regevN (fun i => (e i : F)) (fun i => (r i : F)) i := by
    rw [product_congr key (fun _ _ => rfl) below, product_add_left]
  have opened : product regevN (poly ct.c1) (fun i => (s i : F)) i =
      product regevN (product regevN (poly pk.a) fun i => (r i : F)) (fun i => (s i : F)) i +
        product regevN (fun i => (e1 i : F)) (fun i => (s i : F)) i := by
    rw [product_congr encrypted.first (fun _ _ => rfl) below, product_add_left]
  have cast (a b : Nat → Int) : ((product regevN a b i : Int) : F) =
      product regevN (fun i => (a i : F)) (fun i => (b i : F)) i :=
        product_map (Int.castRingHom F) a b i
  -- The two products with `a` cancel.
  rw [phase, encrypted.second i below, mask, opened, product_right_comm below]
  push_cast
  rw [cast, cast]
  ring

theorem Carries.of_encryption (exactly : IsFullProduct fullPolyMul) (key : Opens pk s)
    (encrypted : IsEncryption fullPolyMul pk value ct) : Carries s ct 1 value.toNat := by
  obtain ⟨first, second⟩ := encrypted.canonical
  obtain ⟨r, e1, e2, holds⟩ := encrypted.sealed exactly
  obtain ⟨e, small, equation⟩ := key.noise
  refine ⟨first, second, bit value, _, bit_le value, fun i => bit_of_le value, sum_bit value,
    fun i _ => ?_, fun i below => phase_of_sealed equation holds below⟩
  have left := abs_le.mp (abs_product_le (n := regevN) small holds.ternary i)
  have right := abs_le.mp (abs_product_le (n := regevN) holds.small1 key.ternary i)
  have rest := abs_le.mp (holds.small2 i)
  rw [abs_le]
  simp only [noiseBound]
  push_cast
  omega

/-! ## Sums -/

theorem addCiphertexts_eq (first : IsCanonical ct.c1) (second : IsCanonical ct.c2)
    (first' : IsCanonical ct'.c1) (second' : IsCanonical ct'.c2) :
    addCiphertexts ct ct' =
      .ok ⟨addPolynomials ct.c1 ct'.c1, addPolynomials ct.c2 ct'.c2⟩ := by
  simp only [addCiphertexts, validate_ciphertext_iff.mpr ⟨first, second⟩,
    validate_ciphertext_iff.mpr ⟨first', second'⟩]
  rfl

theorem Carries.add (left : Carries s ct count amount) (right : Carries s ct' count' amount') :
    ∃ sum, addCiphertexts ct ct' = .ok sum ∧
      Carries s sum (count + count') (amount + amount') := by
  obtain ⟨first, second, digit, noise, few, high, value, small, holds⟩ := left
  obtain ⟨first', second', digit', noise', few', high', value', small', holds'⟩ := right
  refine ⟨_, addCiphertexts_eq first second first' second', first.addPolynomials first',
    second.addPolynomials second', fun i => digit i + digit' i, fun i => noise i + noise' i,
    fun i => Nat.add_le_add (few i) (few' i),
    fun i large => by simp only [high i large, high' i large],
    ?_, fun i below => ?_, fun i below => ?_⟩
  · simp only [add_mul, sum_add_distrib, value, value']
  · have bound := add_le_add (small i below) (small' i below)
    push_cast
    rw [add_mul]
    exact (abs_add_le _ _).trans bound
  · rw [phase_add first second first' second' below, holds i below, holds' i below]
    push_cast
    ring

/-! ## Decryption -/

/-- A digit comes back when its noise is below half a step. -/
theorem digitOf_eq {v digit : Nat} (noise : Int) (canonical : v < regevQ) (few : digit ≤ 65)
    (small : |noise| ≤ 65 * noiseBound)
    (same : (v : F) = ((regevDelta * digit + noise : Int) : F)) : digitOf v = digit := by
  have congruent := (ZMod.intCast_eq_intCast_iff (v : Int) _ _).mp ((Int.cast_natCast v).trans same)
  obtain ⟨k, turns⟩ := congruent.dvd
  have bounds := abs_le.mp small
  have delta : regevDelta = 7864320 := by decide
  have bound : noiseBound = 8194 := by decide
  have modulus : regevQ = 2013265921 := rfl
  have base : regevT = 256 := by decide
  rw [delta, modulus] at turns
  rw [modulus] at canonical
  rw [bound] at bounds
  rw [digitOf, base, modulus]
  push_cast at turns bounds
  -- Either the phase is the value itself, or the digit is zero and the noise negative.
  obtain same | wrapped : k = 0 ∨ k = -1 := by omega
  · subst same
    rw [show (v * 256 + 2013265921 / 2) / 2013265921 = digit from
      Nat.div_eq_of_lt_le (by omega) (by omega)]
    omega
  · subst wrapped
    rw [show (v * 256 + 2013265921 / 2) / 2013265921 = 256 from
      Nat.div_eq_of_lt_le (by omega) (by omega)]
    omega

theorem sum_map_range (f : Nat → Nat) (k : Nat) :
    ((List.range k).map f).sum = ∑ i ∈ range k, f i := by
  induction k with
  | zero => rfl
  | succ k ih => simp [List.range_succ, sum_range_succ, ih]

theorem drop_eq_zero (high : ∀ i, 64 ≤ i → digit i = 0) {d : Nat}
    (member : d ∈ ((List.range n).map digit).drop 64) : d = 0 := by
  obtain ⟨i, inside, rfl⟩ := List.mem_iff_getElem.mp member
  simp [high (64 + i) (by omega)]

theorem sum_take_eq (digit : Nat → Nat) (long : 64 ≤ n) :
    ((((List.range n).map digit).take 64).zipIdx.map fun (d, i) => d * 2 ^ i).sum =
      ∑ i ∈ range 64, digit i * 2 ^ i := by
  have taken : (((List.range n).map digit).take 64).zipIdx.map (fun (d, i) => d * 2 ^ i) =
      (List.range 64).map fun i => digit i * 2 ^ i := by
    refine ext_getElem (by simp [long]) fun i inside inside' => ?_
    simp
  rw [taken, sum_map_range]

theorem amountOfDigits_eq (long : 64 ≤ n) (high : ∀ i, 64 ≤ i → digit i = 0) :
    amountOfDigits ((List.range n).map digit) =
      if ∑ i ∈ range 64, digit i * 2 ^ i < 2 ^ 64 then
        .ok (BitVec.ofNat 64 (∑ i ∈ range 64, digit i * 2 ^ i))
      else .error .decryptOverflow := by
  have zeros : ¬(((List.range n).map digit).drop 64).any (· ≠ 0) = true := by
    rw [Bool.not_eq_true, any_eq_false]
    intro d member
    simpa using drop_eq_zero high member
  simp only [amountOfDigits, revertIf, if_neg zeros, sum_take_eq digit long]
  by_cases fits : ∑ i ∈ range 64, digit i * 2 ^ i < 2 ^ 64
  · rw [if_pos fits, if_neg (not_le.mpr fits)]
    rfl
  · rw [if_neg fits, if_pos (le_of_not_gt fits)]
    rfl

theorem Carries.decryptAmount (exactly : IsFullProduct fullPolyMul) {sk : RegevSk}
    (secret : sk.s.length = regevN) (holds : Carries (entries sk.s) ct count amount)
    (few : count ≤ 65) :
    decryptAmount (decrypt fullPolyMul) sk ct =
      if amount < 2 ^ 64 then .ok (BitVec.ofNat 64 amount) else .error .decryptOverflow := by
  obtain ⟨first, second, digit, noise, low, high, value, small, phases⟩ := holds
  have digits : decrypt fullPolyMul sk ct = (List.range regevN).map digit := by
    rw [decrypt_eq exactly secret first.1 second.1]
    refine List.map_congr_left fun i member => ?_
    have below := List.mem_range.mp member
    refine digitOf_eq (noise i) (ZMod.val_lt _) ((low i).trans few)
      ((small i below).trans ?_) ((ZMod.natCast_zmod_val _).trans (phases i below))
    exact_mod_cast Nat.mul_le_mul_right _ few
  have long : 64 ≤ regevN := by decide
  simp [Channel.decryptAmount, validate_ciphertext_iff.mpr ⟨first, second⟩, secret, revertIf,
    digits, amountOfDigits_eq long high, value]
  rfl

/-! ## Every order and grouping -/

/-- A way to add ciphertexts up. -/
inductive Grouping where
  | one (ct : RegevCiphertext)
  | add (left right : Grouping)

namespace Grouping

def leaves : Grouping → List RegevCiphertext
  | one ct => [ct]
  | add left right => left.leaves ++ right.leaves

def sum : Grouping → Except RegevError RegevCiphertext
  | one ct => .ok ct
  | add left right => do
    let a ← left.sum
    let b ← right.sum
    addCiphertexts a b

end Grouping

/-- A canonical ciphertext whose coefficients are the sums of those of a list. -/
structure IsTotal (cts : List RegevCiphertext) (total : RegevCiphertext) : Prop where
  first : IsCanonical total.c1
  second : IsCanonical total.c2
  sum1 : ∀ i < regevN, poly total.c1 i = (cts.map fun ct => poly ct.c1 i).sum
  sum2 : ∀ i < regevN, poly total.c2 i = (cts.map fun ct => poly ct.c2 i).sum

theorem IsTotal.unique {total total' : RegevCiphertext} (left : IsTotal cts total)
    (right : IsTotal cts' total') (same : cts.Perm cts') : total = total' := by
  have firsts : total.c1 = total'.c1 := left.first.ext right.first fun i below => by
    rw [left.sum1 i below, right.sum1 i below, (same.map _).sum_eq]
  have seconds : total.c2 = total'.c2 := left.second.ext right.second fun i below => by
    rw [left.sum2 i below, right.sum2 i below, (same.map _).sum_eq]
  cases total
  cases total'
  exact congrArg₂ RegevCiphertext.mk firsts seconds

theorem IsTotal.one (first : IsCanonical ct.c1) (second : IsCanonical ct.c2) : IsTotal [ct] ct :=
  ⟨first, second, fun i _ => by simp, fun i _ => by simp⟩

theorem IsTotal.add (left : IsTotal cts ct) (right : IsTotal cts' ct') :
    ∃ total, addCiphertexts ct ct' = .ok total ∧ IsTotal (cts ++ cts') total := by
  refine ⟨_, addCiphertexts_eq left.first left.second right.first right.second,
    left.first.addPolynomials right.first, left.second.addPolynomials right.second,
    fun i below => ?_, fun i below => ?_⟩
  · rw [poly_addPolynomials left.first right.first below, left.sum1 i below, right.sum1 i below,
      map_append, sum_append]
  · rw [poly_addPolynomials left.second right.second below, left.sum2 i below, right.sum2 i below,
      map_append, sum_append]

theorem Grouping.isTotal (grouping : Grouping)
    (canonical : ∀ ct ∈ grouping.leaves, IsCanonical ct.c1 ∧ IsCanonical ct.c2) :
    ∃ total, grouping.sum = .ok total ∧ IsTotal grouping.leaves total := by
  induction grouping with
  | one ct =>
    obtain ⟨first, second⟩ := canonical ct (List.mem_singleton.mpr rfl)
    exact ⟨ct, rfl, .one first second⟩
  | add left right ihLeft ihRight =>
    obtain ⟨a, summed, isA⟩ := ihLeft fun ct member => canonical ct (mem_append_left _ member)
    obtain ⟨b, summed', isB⟩ := ihRight fun ct member =>
      canonical ct (mem_append_right _ member)
    obtain ⟨total, added, isTotal⟩ := isA.add isB
    exact ⟨total, by rw [Grouping.sum, summed, summed']; exact added, isTotal⟩

/-- Adding one after the other. -/
theorem sum_in_turn (exactly : IsFullProduct fullPolyMul) (key : Opens pk s)
    {further : List (BitVec 64 × RegevCiphertext)}
    (encrypted : ∀ e ∈ further, IsEncryption fullPolyMul pk e.1 e.2)
    (carries : Carries s ct count amount) (total : IsTotal cts ct) :
    ∃ sum, (further.map (·.2)).foldlM addCiphertexts ct = .ok sum ∧
      Carries s sum (count + further.length) (amount + (further.map (·.1.toNat)).sum) ∧
      IsTotal (cts ++ further.map (·.2)) sum := by
  induction further generalizing ct count amount cts with
  | nil => exact ⟨ct, rfl, by simpa using carries, by simpa using total⟩
  | cons next further ih =>
    have fresh := encrypted next mem_cons_self
    obtain ⟨both, added, carried⟩ := carries.add (Carries.of_encryption exactly key fresh)
    obtain ⟨total', added', isTotal⟩ := total.add (.one fresh.canonical.1 fresh.canonical.2)
    obtain rfl : both = total' := Except.ok.inj (added.symm.trans added')
    obtain ⟨sum, folded, holds, isSum⟩ :=
      ih (fun e member => encrypted e (mem_cons_of_mem _ member)) carried isTotal
    refine ⟨sum, ?_, ?_, ?_⟩
    · rw [List.map_cons, List.foldlM_cons, added]
      exact folded
    · convert holds using 1
      · simp
        omega
      · simp
        omega
    · simpa using isSum

/-- The sum of a fresh ciphertext and at most 64 further ones decrypts to the sum of their amounts,
    in whatever order and grouping they are added. -/
theorem homomorphic_sum_decrypts {fullPolyMul : List F → List F → List F}
    (exactly : IsFullProduct fullPolyMul) {pk : RegevPk} {sk : RegevSk}
    (pair : IsKeyPair fullPolyMul pk sk) (fresh : BitVec 64 × RegevCiphertext)
    (further : List (BitVec 64 × RegevCiphertext))
    (encrypted : ∀ e ∈ fresh :: further, IsEncryption fullPolyMul pk e.1 e.2)
    (few : further.length ≤ maxHomoAddsBeforeRefresh) :
    ∃ sum, (further.map (·.2)).foldlM addCiphertexts fresh.2 = .ok sum ∧
      (let amount := ((fresh :: further).map (·.1.toNat)).sum
       decryptAmount (decrypt fullPolyMul) sk sum =
        if amount < 2 ^ 64 then .ok (BitVec.ofNat 64 amount) else .error .decryptOverflow) ∧
      ∀ grouping : Grouping, grouping.leaves.Perm ((fresh :: further).map (·.2)) →
        grouping.sum = .ok sum := by
  have first := encrypted fresh List.mem_cons_self
  have key := pair.opens exactly
  obtain ⟨sum, folded, carries, total⟩ := sum_in_turn exactly key
    (fun e member => encrypted e (List.mem_cons_of_mem _ member))
    (Carries.of_encryption exactly key first) (.one first.canonical.1 first.canonical.2)
  have secret : sk.s.length = regevN := by
    obtain ⟨a, eu, ev, -, ternary, -⟩ := pair
    exact ternary.1
  have count : 1 + further.length ≤ 65 := by
    rw [maxHomoAddsBeforeRefresh] at few
    omega
  refine ⟨sum, folded, carries.decryptAmount exactly secret count, fun grouping same => ?_⟩
  have canonical : ∀ ct ∈ grouping.leaves, IsCanonical ct.c1 ∧ IsCanonical ct.c2 := by
    intro ct member
    obtain ⟨e, listed, rfl⟩ := List.mem_map.mp (same.subset member)
    exact (encrypted e listed).canonical
  obtain ⟨total', summed, isTotal⟩ := grouping.isTotal canonical
  rw [summed, isTotal.unique total same]

/-! ## A key with noise -/

/-- The product by its definition. -/
def schoolbook (a b : List F) : List F :=
  (List.range (2 * regevN)).map fun i =>
    ∑ m ∈ range regevN, if m ≤ i then coefficients a m * coefficients b (i - m) else 0

theorem isFullProduct_schoolbook : IsFullProduct schoolbook := by
  refine ⟨fun a b _ _ => by rw [schoolbook, length_map, length_range],
    fun a b _ right i below => ?_⟩
  rw [schoolbook, coefficients_map_range below, coeff_polynomial_mul]
  refine Finset.sum_congr rfl fun m _ => ?_
  rw [coeff_polynomial]
  split
  · split
    · rfl
    · rw [coefficients, coefficients, getD_eq_default b 0 (by omega)]
  · rfl

/-- The list `-1, 0, 1, -1, …` -/
def sampleSecret : List (BitVec 8) :=
  (List.range regevN).map fun i => BitVec.ofInt 8 ((i % 3 : Nat) - 1)

def sampleHalf (shift : Nat) : List (BitVec 8) :=
  (List.range regevN).map fun i => BitVec.ofNat 8 ((i + shift) % 3)

theorem isTernary_sampleSecret : IsTernary sampleSecret := by
  refine ⟨by rw [sampleSecret, length_map, length_range], fun x member => ?_⟩
  rw [sampleSecret, List.mem_map] at member
  obtain ⟨i, -, rfl⟩ := member
  obtain rest | rest | rest : i % 3 = 0 ∨ i % 3 = 1 ∨ i % 3 = 2 := by omega
  all_goals
    rw [rest]
    decide

theorem isHalf_sampleHalf (shift : Nat) : IsHalf (sampleHalf shift) := by
  refine ⟨by rw [sampleHalf, length_map, length_range], fun x member => ?_⟩
  rw [sampleHalf, List.mem_map] at member
  obtain ⟨i, -, rfl⟩ := member
  rw [BitVec.toNat_ofNat]
  omega

attribute [irreducible] sampleSecret sampleHalf

/-- The noise of the key is `-1, -1, 2, …`. -/
def sampleKey : RegevPk × RegevSk :=
  channelKeygen schoolbook (replicate regevN 1) sampleSecret (sampleHalf 0) (sampleHalf 1)

theorem isKeyPair_sampleKey : IsKeyPair schoolbook sampleKey.1 sampleKey.2 := by
  have secret : sampleKey.2.s = sampleSecret := by simp only [sampleKey, channelKeygen, keygen]
  refine ⟨replicate regevN 1, _, _, length_replicate, secret ▸ isTernary_sampleSecret,
    isHalf_sampleHalf 0, isHalf_sampleHalf 1, ?_⟩
  rw [secret, sampleKey]

theorem sampleKey_valid : validateRegevPk sampleKey.1 = .ok () := by
  rw [validate_key_iff]
  simp only [sampleKey, channelKeygen, keygen]
  refine ⟨.fromUpstream length_replicate, .fromUpstream ?_⟩
  rw [length_zipWith, length_cbdToField (isHalf_sampleHalf 0) (isHalf_sampleHalf 1),
    splitNegacyclic, length_map, length_range, min_self]

def sampleSamples : Samples :=
  { r := sampleSecret, e1u := sampleHalf 0, e1v := sampleHalf 2, e2u := sampleHalf 1
    e2v := sampleHalf 0 }

def sampleCt (amount : BitVec 64) : RegevCiphertext :=
  fromUpstreamCt (encrypt schoolbook sampleSamples
    ⟨toUpstream sampleKey.1.a, toUpstream sampleKey.1.b⟩ (encodeAmount amount)).1

theorem isEncryption_sampleCt (amount : BitVec 64) :
    IsEncryption schoolbook sampleKey.1 amount (sampleCt amount) := by
  have wellFormed : sampleSamples.WellFormed := ⟨isTernary_sampleSecret, isHalf_sampleHalf 0,
    isHalf_sampleHalf 2, isHalf_sampleHalf 1, isHalf_sampleHalf 0⟩
  exact ⟨sampleSamples, wellFormed, _, encryptAmount_eq _ sampleKey_valid⟩

theorem isEncryption_padding (exactly : IsFullProduct fullPolyMul)
    (valid : validateRegevPk pk = .ok ()) :
    IsEncryption fullPolyMul pk 0 RegevCiphertext.padding := by
  have ternary : IsTernary (replicate regevN 0) := ⟨length_replicate, fun x member => by
    rw [eq_of_mem_replicate member]; decide⟩
  have half : IsHalf (replicate regevN 0) := ⟨length_replicate, fun x member => by
    rw [eq_of_mem_replicate member]; decide⟩
  exact ⟨zeroSamples, ⟨ternary, half, half, half, half⟩, _,
    encryptAmount_zero exactly valid⟩

/-- Under a key with noise a sum with a carry and padding is read exactly, and one that does not
    fit is refused. -/
theorem homomorphic_sum_decrypts_sample :
    (∃ sum, [sampleCt 5, RegevCiphertext.padding].foldlM addCiphertexts (sampleCt 3) = .ok sum ∧
      decryptAmount (decrypt schoolbook) sampleKey.2 sum = .ok 8) ∧
    ∃ sum, addCiphertexts (sampleCt (.ofNat 64 (2 ^ 63))) (sampleCt (.ofNat 64 (2 ^ 63))) =
      .ok sum ∧ decryptAmount (decrypt schoolbook) sampleKey.2 sum = .error .decryptOverflow := by
  have padding := isEncryption_padding isFullProduct_schoolbook sampleKey_valid
  obtain ⟨sum, added, decrypted, -⟩ := homomorphic_sum_decrypts isFullProduct_schoolbook
    isKeyPair_sampleKey (3, sampleCt 3) [(5, sampleCt 5), (0, RegevCiphertext.padding)]
    (by simpa [isEncryption_sampleCt] using padding) (by decide)
  obtain ⟨sum', added', decrypted', -⟩ := homomorphic_sum_decrypts isFullProduct_schoolbook
    isKeyPair_sampleKey (.ofNat 64 (2 ^ 63), sampleCt (.ofNat 64 (2 ^ 63)))
    [(.ofNat 64 (2 ^ 63), sampleCt (.ofNat 64 (2 ^ 63)))]
    (by simp [isEncryption_sampleCt]) (by decide)
  refine ⟨⟨sum, by simpa using added, by simpa using decrypted⟩,
    sum', by simpa using added', ?_⟩
  simpa using decrypted'

end Intmax.Regev
