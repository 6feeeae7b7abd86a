import Intmax.Circuits.Hashing
import Intmax.Circuits.PublicInputs

/-! # Hashing on the deployed types

`PoseidonHashOut` is four canonical field elements and `Bytes32` eight 32-bit words.  Keccak runs
over the big-endian bytes of the words it is given; Poseidon stays a parameter.
-/

namespace Intmax

/-- Four elements of the Goldilocks field. -/
structure PoseidonHashOut where
  e0 : Fin goldilocksOrder
  e1 : Fin goldilocksOrder
  e2 : Fin goldilocksOrder
  e3 : Fin goldilocksOrder
  deriving DecidableEq

/-- Poseidon over lists of field elements, and the compression of two digests. -/
class Poseidon where
  hashInputsU64 : List Nat → PoseidonHashOut
  twoToOne : PoseidonHashOut → PoseidonHashOut → PoseidonHashOut

namespace PoseidonHashOut

theorem order_pos : 0 < goldilocksOrder := by decide

instance : Inhabited (Fin goldilocksOrder) := ⟨⟨0, order_pos⟩⟩

/-- `Bytes32::from`: each element as its high and its low word. -/
def toBytes32 (d : PoseidonHashOut) : Bytes32 :=
  BitVec.ofNat 256 (((d.e0.val * 2 ^ 64 + d.e1.val) * 2 ^ 64 + d.e2.val) * 2 ^ 64 + d.e3.val)

/-- The `i`-th 64-bit word of `reduce_to_hash_out`, before it is read as a field element. -/
def element (b : Bytes32) (i : Nat) : Nat := b.toNat / 2 ^ (64 * (3 - i)) % 2 ^ 64

/-- `PoseidonHashOut::try_from`: every word has to be a canonical element. -/
def tryFrom (b : Bytes32) : Option PoseidonHashOut :=
  if h : element b 0 < goldilocksOrder ∧ element b 1 < goldilocksOrder ∧
      element b 2 < goldilocksOrder ∧ element b 3 < goldilocksOrder then
    some ⟨⟨element b 0, h.1⟩, ⟨element b 1, h.2.1⟩, ⟨element b 2, h.2.2.1⟩,
      ⟨element b 3, h.2.2.2⟩⟩
  else none

/-- `reduce_to_hash_out`, its words as field elements.  The native function keeps a word from the
    order on as it is; here it is taken modulo the order, as the circuit and every hash of it do. -/
def reduce (b : Bytes32) : PoseidonHashOut :=
  let field (i : Nat) : Fin goldilocksOrder :=
    ⟨element b i % goldilocksOrder, Nat.mod_lt _ order_pos⟩
  ⟨field 0, field 1, field 2, field 3⟩

theorem toNat_eq_elements (b : Bytes32) :
    b.toNat = ((element b 0 * 2 ^ 64 + element b 1) * 2 ^ 64 + element b 2) * 2 ^ 64 +
      element b 3 := by
  simp [element, Nat.reduceSub, Nat.reduceMul]
  omega

theorem word_lt (e : Fin goldilocksOrder) : e.val < 2 ^ 64 := lt_trans e.isLt (by decide)

theorem toBytes32_toNat (d : PoseidonHashOut) :
    d.toBytes32.toNat =
      ((d.e0.val * 2 ^ 64 + d.e1.val) * 2 ^ 64 + d.e2.val) * 2 ^ 64 + d.e3.val := by
  have h0 := word_lt d.e0
  have h1 := word_lt d.e1
  have h2 := word_lt d.e2
  have h3 := word_lt d.e3
  rw [toBytes32, BitVec.toNat_ofNat, Nat.mod_eq_of_lt]
  omega

theorem elements_toBytes32 (d : PoseidonHashOut) :
    element d.toBytes32 0 = d.e0 ∧ element d.toBytes32 1 = d.e1 ∧
      element d.toBytes32 2 = d.e2 ∧ element d.toBytes32 3 = d.e3 := by
  have h0 := word_lt d.e0
  have h1 := word_lt d.e1
  have h2 := word_lt d.e2
  have h3 := word_lt d.e3
  simp [element, toBytes32_toNat, Nat.reduceSub, Nat.reduceMul]
  omega

theorem tryFrom_eq_some (b : Bytes32) (d : PoseidonHashOut) :
    tryFrom b = some d ↔ d.toBytes32 = b := by
  constructor
  · intro read
    unfold tryFrom at read
    split at read
    case isTrue canonical =>
      cases read
      exact BitVec.eq_of_toNat_eq ((toBytes32_toNat _).trans (toNat_eq_elements b).symm)
    case isFalse => cases read
  · rintro rfl
    obtain ⟨h0, h1, h2, h3⟩ := elements_toBytes32 d
    simp [tryFrom, h0, h1, h2, h3]

theorem reduce_toBytes32 (d : PoseidonHashOut) : reduce d.toBytes32 = d := by
  obtain ⟨h0, h1, h2, h3⟩ := elements_toBytes32 d
  simp only [reduce, h0, h1, h2, h3, Nat.mod_eq_of_lt (Fin.isLt _)]

end PoseidonHashOut

namespace Item

/-- The 32-bit words Keccak hashes for an item. -/
def words : Item PoseidonHashOut Bytes32 → List Nat
  | .elem n => [n]
  | .digest d => PublicInputs.toU64Vec 8 d.toBytes32
  | .bytes b => PublicInputs.toU64Vec 8 b

@[simp] theorem words_elem (n : Nat) : words (.elem n) = [n] := rfl

@[simp] theorem words_bytes (b : Bytes32) : words (.bytes b) = PublicInputs.toU64Vec 8 b := rfl

/-- The field elements Poseidon hashes for an item. -/
def elements : Item PoseidonHashOut Bytes32 → List Nat
  | .elem n => [n]
  | .digest d => [d.e0, d.e1, d.e2, d.e3]
  | .bytes b => PublicInputs.toU64Vec 8 b

end Item

instance deployedHashing [Keccak] [Poseidon] : Hashing PoseidonHashOut Bytes32 where
  zeroDigest := ⟨default, default, default, default⟩
  zeroBytes := 0
  hashInputs items := Poseidon.hashInputsU64 (items.flatMap Item.elements)
  twoToOne := Poseidon.twoToOne
  keccak items := PublicInputs.hashWords (items.flatMap Item.words)
  ofDigest := PoseidonHashOut.toBytes32
  toDigest := PoseidonHashOut.tryFrom
  reduceToHashOut := PoseidonHashOut.reduce
  ofDigest_zero := by decide
  toDigest_eq_some := PoseidonHashOut.tryFrom_eq_some
  reduceToHashOut_ofDigest := PoseidonHashOut.reduce_toBytes32

end Intmax
