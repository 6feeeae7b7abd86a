import Mathlib.Data.ZMod.Basic
import Intmax.Lib.Convolution
import Intmax.Channel.Regev

/-! # The Regev scheme of channel balances

`regev/encrypt.rs` and `regev/keys.rs` over the vendored `regev_plonky3`.  What the source samples
is an argument here.  The vendored `full_poly_mul`, which goes through a transform, is a parameter,
and `IsFullProduct` says of it what its comment says.
-/

namespace Intmax.Regev

open List hiding product
open Channel Checked Validity Negacyclic

/-- The field `BabyBear`. -/
abbrev F := ZMod regevQ

instance regevQ_pos : NeZero regevQ := ⟨by decide⟩

def regevPlainBits : Nat := 8

/-- `RegevParams::t`. -/
def regevT : Nat := 2 ^ regevPlainBits

/-- `RegevParams::delta`. -/
def regevDelta : Nat := regevQ / regevT

def maxHomoAddsBeforeRefresh : Nat := 64

/-! ## The vendored scheme -/

def centeredToField (x : Int) : F := if 0 ≤ x then (x.toNat : F) else -((-x).toNat : F)

/-- Entries are `i8`. -/
def smallToField (small : List (BitVec 8)) : List F := small.map fun x => centeredToField x.toInt

/-- Entries are `u8`. -/
def cbdToField (u v : List (BitVec 8)) : List F :=
  List.zipWith (fun u v => centeredToField ((u.toNat : Int) - v.toNat)) u v

/-- The coefficients of a polynomial as an array. -/
def coefficients (xs : List F) (i : Nat) : F := xs.getD i 0

/-- The full product of two polynomials with `n` coefficients each, returned as `2 n`
    coefficients. -/
structure IsFullProduct (fullPolyMul : List F → List F → List F) : Prop where
  length : ∀ a b, a.length = regevN → b.length = regevN →
    (fullPolyMul a b).length = 2 * regevN
  coeff : ∀ a b, a.length = regevN → b.length = regevN → ∀ i < 2 * regevN,
    coefficients (fullPolyMul a b) i =
      (polynomial regevN (coefficients a) * polynomial regevN (coefficients b)).coeff i

/-- The remainder and the quotient of a product modulo `X ^ n + 1`. -/
def splitNegacyclic (prod : List F) (n : Nat) : List F × List F :=
  ((List.range n).map fun i => prod.getD i 0 - prod.getD (n + i) 0,
    (List.range n).map fun i => prod.getD (n + i) 0)

structure PublicKey where
  a : List F
  b : List F

structure Ciphertext where
  c1 : List F
  c2 : List F

variable (fullPolyMul : List F → List F → List F)

def keygen (a : List F) (s eu ev : List (BitVec 8)) : PublicKey × RegevSk :=
  let e := cbdToField eu ev
  let sF := smallToField s
  let b := (splitNegacyclic (fullPolyMul a sF) regevN).1
  ({ a, b := List.zipWith (· + ·) b e }, { s })

/-- What one encryption samples. -/
structure Samples where
  r : List (BitVec 8)
  e1u : List (BitVec 8)
  e1v : List (BitVec 8)
  e2u : List (BitVec 8)
  e2v : List (BitVec 8)

structure EncryptionWitness extends Samples where
  m : List (BitVec 8)
  k1 : List F
  k2 : List F

def encrypt (samples : Samples) (pk : PublicKey) (m : List (BitVec 8)) :
    Ciphertext × EncryptionWitness :=
  let rF := smallToField samples.r
  let e1 := cbdToField samples.e1u samples.e1v
  let e2 := cbdToField samples.e2u samples.e2v
  let delta : F := regevDelta
  let (arLo, k1) := splitNegacyclic (fullPolyMul pk.a rF) regevN
  let c1 := List.zipWith (· + ·) arLo e1
  let (brLo, k2) := splitNegacyclic (fullPolyMul pk.b rF) regevN
  let c2 := List.zipWith (fun x mi => x + delta * (mi.toNat : F)) (List.zipWith (· + ·) brLo e2) m
  ({ c1, c2 }, { samples with m, k1, k2 })

def encodeValueMessage (value : BitVec 64) (n : Nat) : List (BitVec 8) :=
  (List.range n).map fun i => if i < 64 then ((value >>> i) &&& 1#64).setWidth 8 else 0#8

/-! ## The scheme of a channel -/

/-- `F::from_u32` on coefficients. -/
def toUpstream (xs : List (BitVec 32)) : List F := xs.map fun x => (x.toNat : F)

/-- `as_canonical_u32` on coefficients. -/
def fromUpstream (xs : List F) : List (BitVec 32) := xs.map fun x => BitVec.ofNat 32 x.val

def toUpstreamPk (pk : RegevPk) : Except RegevError PublicKey := do
  validateRegevPk pk
  pure { a := toUpstream pk.a, b := toUpstream pk.b }

def fromUpstreamCt (ct : Ciphertext) : RegevCiphertext :=
  { c1 := fromUpstream ct.c1, c2 := fromUpstream ct.c2 }

def channelKeygen (a : List F) (s eu ev : List (BitVec 8)) : RegevPk × RegevSk :=
  let (pk, sk) := keygen fullPolyMul a s eu ev
  ({ a := fromUpstream pk.a, b := fromUpstream pk.b }, sk)

structure AmountWitness where
  amount : BitVec 64
  witness : EncryptionWitness

def encodeAmount (amount : BitVec 64) : List (BitVec 8) := encodeValueMessage amount regevN

def encryptAmount (samples : Samples) (pk : RegevPk) (amount : BitVec 64) :
    Except RegevError (RegevCiphertext × AmountWitness) := do
  let upstreamPk ← toUpstreamPk pk
  let message := encodeAmount amount
  let (ct, witness) := encrypt fullPolyMul samples upstreamPk message
  pure (fromUpstreamCt ct, { amount, witness })

def zeroSamples : Samples :=
  { r := List.replicate regevN 0, e1u := List.replicate regevN 0, e1v := List.replicate regevN 0
    e2u := List.replicate regevN 0, e2v := List.replicate regevN 0 }

/-- The public opening of the padding ciphertext. -/
def zeroAmountWitness : AmountWitness :=
  { amount := 0
    witness := { zeroSamples with
      m := List.replicate regevN 0, k1 := List.replicate regevN 0, k2 := List.replicate regevN 0 } }

/-- The digit of a coefficient: `round(v t / q) mod t`. -/
def digitOf (v : Nat) : Nat := (v * regevT + regevQ / 2) / regevQ % regevT

/-- `decrypt` of the vendored scheme on a ciphertext in its canonical form. -/
def decrypt (sk : RegevSk) (ct : RegevCiphertext) : List Nat :=
  let sF := smallToField sk.s
  let c1s := (splitNegacyclic (fullPolyMul (toUpstream ct.c1) sF) regevN).1
  List.zipWith (fun c2i c1si => digitOf (c2i - c1si).val) (toUpstream ct.c2) c1s

/-! ## Key pairs and encryptions -/

/-- `n` coefficients in `{-1, 0, 1}`. -/
def IsTernary (small : List (BitVec 8)) : Prop :=
  small.length = regevN ∧ ∀ x ∈ small, -1 ≤ x.toInt ∧ x.toInt ≤ 1

/-- `n` halves of a noise, in `{0, 1, 2}`. -/
def IsHalf (half : List (BitVec 8)) : Prop := half.length = regevN ∧ ∀ x ∈ half, x.toNat ≤ 2

/-- A key pair as key generation makes it, whatever it samples. -/
def IsKeyPair (pk : RegevPk) (sk : RegevSk) : Prop :=
  ∃ a eu ev, a.length = regevN ∧ IsTernary sk.s ∧ IsHalf eu ∧ IsHalf ev ∧
    channelKeygen fullPolyMul a sk.s eu ev = (pk, sk)

structure Samples.WellFormed (samples : Samples) : Prop where
  r : IsTernary samples.r
  e1u : IsHalf samples.e1u
  e1v : IsHalf samples.e1v
  e2u : IsHalf samples.e2u
  e2v : IsHalf samples.e2v

/-- A ciphertext as encryption makes it, whatever is sampled within the bounds. -/
def IsEncryption (pk : RegevPk) (amount : BitVec 64) (ct : RegevCiphertext) : Prop :=
  ∃ samples : Samples, samples.WellFormed ∧
    ∃ witness, encryptAmount fullPolyMul samples pk amount = .ok (ct, witness)

/-! ## Coefficients -/

/-- The coefficients of a polynomial of a key or of a ciphertext. -/
def poly (xs : List (BitVec 32)) : Nat → F := coefficients (toUpstream xs)

/-- The coefficients of a list of `i8`. -/
def entries (small : List (BitVec 8)) (i : Nat) : Int := (small.getD i 0).toInt

/-- The noise of two halves. -/
def noise (u v : List (BitVec 8)) (i : Nat) : Int := ((u.getD i 0).toNat : Int) - (v.getD i 0).toNat

theorem centeredToField_eq (x : Int) : centeredToField x = (x : F) := by
  unfold centeredToField
  split
  · rename_i nonneg
    rw [← Int.cast_natCast, Int.toNat_of_nonneg nonneg]
  · rename_i negative
    rw [← Int.cast_natCast, Int.toNat_of_nonneg (by omega), Int.cast_neg, neg_neg]

variable {fullPolyMul} {i : Nat} {u v : List (BitVec 8)}

theorem coefficients_map_range {n : Nat} {f : Nat → F} (below : i < n) :
    coefficients ((range n).map f) i = f i := by
  simp [coefficients, getD, below]

theorem coefficients_smallToField (small : List (BitVec 8)) (i : Nat) :
    coefficients (smallToField small) i = (entries small i : F) := by
  rw [coefficients, smallToField, entries, ← centeredToField_eq]
  simp [getD]
  cases small[i]? with
  | none => rfl
  | some x => rfl

theorem coefficients_zipWith {α β : Type} {f : α → β → F} {xs : List α} {ys : List β}
    (left : i < xs.length) (right : i < ys.length) :
    coefficients (zipWith f xs ys) i = f xs[i] ys[i] := by
  simp [coefficients, getD, left, right]

theorem coefficients_getElem {xs : List F} (below : i < xs.length) : xs[i] = coefficients xs i := by
  simp [coefficients, getD, below]

theorem coefficients_cbdToField (left : i < u.length) (right : i < v.length) :
    coefficients (cbdToField u v) i = (noise u v i : F) := by
  rw [cbdToField, coefficients_zipWith left right, centeredToField_eq]
  simp [noise, getD, left, right]

/-- The remainder of a product is the product modulo `X ^ n + 1`. -/
theorem splitNegacyclic_fullPolyMul (exactly : IsFullProduct fullPolyMul) {a b : List F}
    (left : a.length = regevN) (right : b.length = regevN) :
    (splitNegacyclic (fullPolyMul a b) regevN).1 =
      (range regevN).map (product regevN (coefficients a) (coefficients b)) := by
  have coeff := exactly.coeff a b left right
  simp only [splitNegacyclic]
  refine map_congr_left fun i member => ?_
  rw [mem_range] at member
  rw [product_eq (n := regevN) member, mod_coeff (n := regevN) degree_polynomial_mul member,
    ← coeff i (by omega), ← coeff (regevN + i) (by omega), coefficients, coefficients]

theorem splitNegacyclic_small (exactly : IsFullProduct fullPolyMul) {a : List F}
    {small : List (BitVec 8)} (left : a.length = regevN) (right : small.length = regevN) :
    (splitNegacyclic (fullPolyMul a (smallToField small)) regevN).1 =
      (range regevN).map (product regevN (coefficients a) fun i => (entries small i : F)) := by
  rw [splitNegacyclic_fullPolyMul exactly left (by rw [smallToField, length_map, right])]
  simp only [funext (coefficients_smallToField small)]

theorem toUpstream_fromUpstream (xs : List F) : toUpstream (fromUpstream xs) = xs := by
  rw [toUpstream, fromUpstream, map_map]
  refine (map_congr_left fun x _ => ?_).trans (map_id xs)
  have below : x.val < 2 ^ 32 := (ZMod.val_lt x).trans (by decide)
  rw [Function.comp_apply, BitVec.toNat_ofNat, Nat.mod_eq_of_lt below, ZMod.natCast_zmod_val, id]

theorem poly_fromUpstream (xs : List F) : poly (fromUpstream xs) = coefficients xs := by
  rw [poly, toUpstream_fromUpstream]

theorem length_toUpstream (xs : List (BitVec 32)) : (toUpstream xs).length = xs.length := by
  rw [toUpstream, length_map]

theorem length_cbdToField (left : IsHalf u) (right : IsHalf v) :
    (cbdToField u v).length = regevN := by
  rw [cbdToField, length_zipWith, left.1, right.1, min_self]

theorem coefficients_add_noise {f : Nat → F} (left : IsHalf u) (right : IsHalf v)
    (below : i < regevN) :
    coefficients (zipWith (· + ·) ((range regevN).map f) (cbdToField u v)) i =
      f i + noise u v i := by
  have inside : i < (cbdToField u v).length := (length_cbdToField left right).symm ▸ below
  rw [coefficients_zipWith (by simpa using below) inside, coefficients_getElem inside,
    coefficients_cbdToField (left.1.symm ▸ below) (right.1.symm ▸ below)]
  simp

theorem abs_entries_le {small : List (BitVec 8)} (ternary : IsTernary small) (i : Nat) :
    |entries small i| ≤ 1 := by
  rw [abs_le, entries, getD]
  cases found : small[i]? with
  | none => decide
  | some x => exact ternary.2 x (mem_of_getElem? found)

theorem abs_noise_le (left : IsHalf u) (right : IsHalf v) (i : Nat) : |noise u v i| ≤ 2 := by
  have bound {half : List (BitVec 8)} (isHalf : IsHalf half) : (half.getD i 0).toNat ≤ 2 := by
    rw [getD]
    cases found : half[i]? with
    | none => decide
    | some x => exact isHalf.2 x (mem_of_getElem? found)
  have first := bound left
  have second := bound right
  rw [abs_le, noise]
  omega

end Intmax.Regev
