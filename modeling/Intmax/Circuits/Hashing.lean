import Mathlib.Algebra.GroupWithZero.Nat
import Mathlib.Tactic.Common

/-! # Hashing in the circuits

The circuits hash lists of Goldilocks elements with Poseidon and lists of 32-bit limbs with
Keccak.  A function into the real digests cannot be injective, so statements about
collision-free hashing keep both digest types as parameters: `D` for `PoseidonHashOut` and
`B` for `Bytes32`.  A preimage is a list of items, which the code flattens: a number gives one
element, a digest four and a 32-byte word eight limbs.
-/

namespace Intmax

open Function

/-- The order of the Goldilocks field. -/
def goldilocksOrder : Nat := 0xffffffff00000001

/-- One item of a preimage. -/
inductive Item (D B : Type) where
  | elem (n : Nat)
  | digest (d : D)
  | bytes (b : B)
deriving DecidableEq

namespace Item

variable {D B : Type}

/-- An integer as the field element it is hashed as. -/
def field (n : Nat) : Item D B := .elem (n % goldilocksOrder)

/-- How many field elements an item flattens to. -/
def width : Item D B → Nat
  | .elem _ => 1
  | .digest _ => 4
  | .bytes _ => 8

/-- Two items of one kind flatten to the same number of elements. -/
def sameKind : Item D B → Item D B → Bool
  | .elem _, .elem _ => true
  | .digest _, .digest _ => true
  | .bytes _, .bytes _ => true
  | _, _ => false

end Item

/-- The hash functions of the circuits and the conversions between their digests. -/
class Hashing (D : Type) (B : outParam Type) where
  /-- `PoseidonHashOut::default` and `Bytes32::default`. -/
  zeroDigest : D
  zeroBytes : B
  /-- `PoseidonHashOut::hash_inputs_u64`. -/
  hashInputs : List (Item D B) → D
  /-- `PoseidonLeafableHasher::two_to_one`. -/
  twoToOne : D → D → D
  /-- `solidity_keccak256`. -/
  keccak : List (Item D B) → B
  /-- `Bytes32::from`. -/
  ofDigest : D → B
  /-- `PoseidonHashOut::try_from`. -/
  toDigest : B → Option D
  /-- `Bytes32::reduce_to_hash_out`. -/
  reduceToHashOut : B → D
  ofDigest_zero : ofDigest zeroDigest = zeroBytes
  toDigest_eq_some : ∀ b d, toDigest b = some d ↔ ofDigest d = b
  reduceToHashOut_ofDigest : ∀ d, reduceToHashOut (ofDigest d) = d

namespace Hashing

variable {D B : Type} [Hashing D B]

theorem ofDigest_injective : Injective (ofDigest : D → B) := by
  intro d d' same
  rw [← reduceToHashOut_ofDigest d, same, reduceToHashOut_ofDigest]

/-- No two preimages of one layout hash alike, and no preimage of a leaf hashes like a pair of
    digests.  A leaf of eight elements is excluded: it is hashed exactly as a pair is. -/
structure CollisionFree (D : Type) {B : Type} [Hashing D B] : Prop where
  inputs : ∀ l l' : List (Item D B), List.Forall₂ (fun a b => Item.sameKind a b = true) l l' →
    hashInputs l = hashInputs l' → l = l'
  nodes : Function.Injective2 (twoToOne : D → D → D)
  apart : ∀ (l : List (Item D B)) (a b : D), (l.map Item.width).sum ≠ 8 →
    hashInputs l ≠ twoToOne a b

/-- No two preimages of one layout have one Keccak hash. -/
def KeccakInjective (D : Type) {B : Type} [Hashing D B] : Prop :=
  ∀ l l' : List (Item D B), List.Forall₂ (fun a b => Item.sameKind a b = true) l l' →
    keccak l = keccak l' → l = l'

end Hashing

/-! ## A hashing without collisions -/

namespace Free

mutual
/-- Digests as the expressions that compute them.  `same d k` is the root of a full tree of
    height `k + 1` over `d`. -/
inductive Digest where
  | zero
  | inputs (items : Items)
  | pair (left right : Digest)
  | same (d : Digest) (k : Nat)

inductive Bytes where
  | ofDigest (d : Digest)
  | keccak (items : Items)
  | word (n : Nat)

inductive Items where
  | nil
  | elem (n : Nat) (rest : Items)
  | digest (d : Digest) (rest : Items)
  | bytes (b : Bytes) (rest : Items)
end

deriving instance DecidableEq for Digest, Bytes, Items

def Items.ofList : List (Item Digest Bytes) → Items
  | [] => .nil
  | .elem n :: rest => .elem n (ofList rest)
  | .digest d :: rest => .digest d (ofList rest)
  | .bytes b :: rest => .bytes b (ofList rest)

theorem Items.ofList_injective : Injective Items.ofList := by
  intro l l' same
  induction l generalizing l' with
  | nil =>
    cases l' with
    | nil => rfl
    | cons item rest => cases item <;> cases same
  | cons item rest ih =>
    cases l' with
    | nil => cases item <;> cases same
    | cons item' rest' =>
      cases item <;> cases item' <;>
        simp [ofList, reduceCtorEq] at same
      all_goals
        obtain ⟨rfl, tail⟩ := same
        rw [ih tail]

/-- The root over two equal digests. -/
def Digest.double : Digest → Digest
  | .same d k => .same d (k + 1)
  | d => .same d 0

def Digest.node (left right : Digest) : Digest :=
  if left = right then left.double else .pair left right

theorem Digest.double_injective : Injective Digest.double := by
  intro d d' same
  cases d <;> cases d' <;> simp_all [Digest.double]

theorem Digest.node_injective : Injective2 Digest.node := by
  intro a c b d same
  unfold Digest.node at same
  have apart (x y z : Digest) : x.double ≠ .pair y z := by
    cases x <;> simp [Digest.double]
  split at same
  case isTrue left =>
    split at same
    case isTrue right =>
      have equal := Digest.double_injective same
      exact ⟨equal, left ▸ right ▸ equal⟩
    case isFalse => exact absurd same (apart _ _ _)
  case isFalse =>
    split at same
    case isTrue => exact absurd same.symm (apart _ _ _)
    case isFalse =>
      cases same
      exact ⟨rfl, rfl⟩

def Bytes.toDigest : Bytes → Option Digest
  | .ofDigest d => some d
  | _ => none

instance : Hashing Digest Bytes where
  zeroDigest := .zero
  zeroBytes := .ofDigest .zero
  hashInputs items := .inputs (.ofList items)
  twoToOne := Digest.node
  keccak items := .keccak (.ofList items)
  ofDigest := .ofDigest
  toDigest := Bytes.toDigest
  reduceToHashOut b := b.toDigest.getD .zero
  ofDigest_zero := rfl
  toDigest_eq_some b d := by
    cases b with
    | ofDigest d' => simp [Bytes.toDigest, eq_comm]
    | keccak items => simp [Bytes.toDigest]
    | word n => simp [Bytes.toDigest]
  reduceToHashOut_ofDigest _ := rfl

theorem keccakInjective : Hashing.KeccakInjective Digest := by
  intro l l' _ same
  simp [Hashing.keccak] at same
  exact Items.ofList_injective same

theorem collisionFree : Hashing.CollisionFree Digest where
  inputs l l' _ same := by
    simp [Hashing.hashInputs] at same
    exact Items.ofList_injective same
  nodes := Digest.node_injective
  apart l a b _ same := by
    simp only [Hashing.hashInputs, Hashing.twoToOne, Digest.node] at same
    split at same
    case isTrue => cases a <;> cases same
    case isFalse => cases same

end Free

end Intmax
