import Intmax.Trees.Merkle
import Mathlib.Order.Fin.Basic

/-! # The indexed Merkle tree

Its leaves form a list sorted by key: each leaf names the next larger key and where it is.
An insertion proof shows a leaf with a smaller key whose next key is larger, points it to the
new leaf and puts the new leaf into an empty position.  The verifier sees roots only; leaves,
positions and siblings are all the prover's.
-/

namespace Intmax.Trees

open Checked Hashing List

/-- What can be a key: it is hashed as eight field elements. -/
class TreeKey (D K : Type) {B : outParam Type} [Hashing D B] where
  items : K → List (Item D B)
  items_injective : Function.Injective items
  items_kind : ∀ a b, List.Forall₂ (fun x y => Item.sameKind x y = true) (items a) (items b)
  items_width : ∀ a, ((items a).map Item.width).sum = 8

/-- A 256-bit integer. -/
abbrev U256 := Fin (2 ^ 256)

instance U256.neZero : NeZero (2 ^ 256 : Nat) := ⟨by decide⟩

/-- The eight 32-bit limbs of an integer, most significant first. -/
def u32Limbs (n : Nat) : List Nat := (List.range 8).map fun i => n / 2 ^ (32 * (7 - i)) % 2 ^ 32

theorem u32Limbs_injective {m n : Nat} (hm : m < 2 ^ 256) (hn : n < 2 ^ 256)
    (same : u32Limbs m = u32Limbs n) : m = n := by
  simp only [u32Limbs, range, range.loop, map_cons, map_nil, cons.injEq, and_true] at same
  omega

instance {D B : Type} [Hashing D B] : TreeKey D U256 where
  items key := (u32Limbs key.val).map .elem
  items_injective a b same := by
    have inj : Function.Injective (Item.elem : Nat → Item D B) := fun _ _ h => by cases h; rfl
    exact Fin.ext (u32Limbs_injective a.isLt b.isLt (List.map_injective_iff.mpr inj same))
  items_kind a b := by simp [u32Limbs, List.range, List.range.loop, Item.sameKind]
  items_width a := by simp [u32Limbs, List.range, List.range.loop, Item.width]

/-- Leaf of the indexed Merkle tree. -/
@[ext]
structure IndexedMerkleLeaf (K : Type) where
  nextIndex : BitVec 64
  key : K
  nextKey : K
  value : BitVec 64

section
variable {D B K : Type} [Hashing D B] [LinearOrder K] [BoundedOrder K] [TreeKey D K]

namespace IndexedMerkleLeaf

/-- The leaf of position 0, below every key. -/
def sentinel : IndexedMerkleLeaf K := { nextIndex := 0, key := ⊥, nextKey := ⊥, value := 0 }

def preimage (leaf : IndexedMerkleLeaf K) : List (Item D B) :=
  [.field leaf.nextIndex.toNat] ++ TreeKey.items leaf.key ++ TreeKey.items leaf.nextKey ++
    [.field leaf.value.toNat]

instance : Leafable D (IndexedMerkleLeaf K) where
  emptyLeaf := { nextIndex := BitVec.allOnes 64, key := ⊤, nextKey := ⊥, value := 0 }
  hash leaf := hashInputs leaf.preimage

end IndexedMerkleLeaf

/-! ## The tree -/

abbrev IndexedMerkleTree (D K : Type) := IncrementalMerkleTree D (IndexedMerkleLeaf K)

inductive IndexedMerkleTreeError (D K : Type) where
  | keyNotLowerBounded (key prevLowKey : K)
  | keyNotUpperBounded (key prevLowNextKey : K)
  | merkleProof (error : MerkleProofError D)
  | keyAlreadyExists (key : K)
  | tooManyCandidates
  /-- An assertion of the tree failed. -/
  | panic

namespace IndexedMerkleTree

def new (height : Nat) : Option (IndexedMerkleTree D K) :=
  (IncrementalMerkleTree.new (IndexedMerkleLeaf K) height).push .sentinel

/-- The leaf has the key in its gap. -/
def isLow (key : K) (leaf : IndexedMerkleLeaf K) : Bool :=
  decide (leaf.key < key) && (decide (key < leaf.nextKey) || decide (leaf.nextKey = ⊥))

def lowIndex (t : IndexedMerkleTree D K) (key : K) :
    Except (IndexedMerkleTreeError D K) (BitVec 64) :=
  match t.leaves.zipIdx.filter fun x => isLow key x.1 with
  | [] => .error (.keyAlreadyExists key)
  | [(_, index)] => .ok (BitVec.ofNat 64 index)
  | _ => .error .tooManyCandidates

end IndexedMerkleTree

/-! ## Insertion proofs -/

structure IndexedInsertionProof (D K : Type) where
  index : BitVec 64
  lowLeafProof : MerkleProof D
  leafProof : MerkleProof D
  lowLeafIndex : BitVec 64
  prevLowLeaf : IndexedMerkleLeaf K

namespace IndexedInsertionProof

/-- The low leaf once it points to the new leaf. -/
def newLowLeaf (proof : IndexedInsertionProof D K) (key : K) : IndexedMerkleLeaf K :=
  { proof.prevLowLeaf with nextIndex := proof.index, nextKey := key }

/-- The new leaf, which points where the low leaf did. -/
def newLeaf (proof : IndexedInsertionProof D K) (key : K) (value : BitVec 64) :
    IndexedMerkleLeaf K :=
  { nextIndex := proof.prevLowLeaf.nextIndex, key, nextKey := proof.prevLowLeaf.nextKey, value }

def getNewRoot [DecidableEq D] (proof : IndexedInsertionProof D K) (key : K) (value : BitVec 64)
    (prevRoot : D) : Except (IndexedMerkleTreeError D K) D := do
  let low := proof.prevLowLeaf
  revertIf (key ≤ low.key) (.keyNotLowerBounded key low.key)
  revertIf (¬ (key < low.nextKey ∨ low.nextKey = ⊥)) (.keyNotUpperBounded key low.nextKey)
  (proof.lowLeafProof.verify low proof.lowLeafIndex prevRoot).mapError .merkleProof
  let tempRoot := proof.lowLeafProof.getRoot (proof.newLowLeaf key) proof.lowLeafIndex
  (proof.leafProof.verify (Leafable.emptyLeaf D : IndexedMerkleLeaf K) proof.index
    tempRoot).mapError .merkleProof
  pure (proof.leafProof.getRoot (proof.newLeaf key value) proof.index)

end IndexedInsertionProof

def IndexedMerkleTree.insert (t : IndexedMerkleTree D K) (key : K) (value : BitVec 64) :
    Except (IndexedMerkleTreeError D K) (IndexedMerkleTree D K) := do
  let index := BitVec.ofNat 64 t.leaves.length
  let lowIndex ← lowIndex t key
  let prevLowLeaf := t.getLeaf lowIndex
  let newLowLeaf := { prevLowLeaf with nextIndex := index, nextKey := key }
  let leaf := { nextIndex := prevLowLeaf.nextIndex, key, nextKey := prevLowLeaf.nextKey, value }
  let t ← getOrRevert (t.update lowIndex newLowLeaf) .panic
  getOrRevert (t.push leaf) .panic

/-- Insert a key and prove it. -/
def IndexedMerkleTree.proveAndInsert (t : IndexedMerkleTree D K) (key : K) (value : BitVec 64) :
    Except (IndexedMerkleTreeError D K) (IndexedInsertionProof D K × IndexedMerkleTree D K) := do
  let index := BitVec.ofNat 64 t.leaves.length
  let lowIndex ← lowIndex t key
  let prevLowLeaf := t.getLeaf lowIndex
  let newLowLeaf := { prevLowLeaf with nextIndex := index, nextKey := key }
  let leaf := { nextIndex := prevLowLeaf.nextIndex, key, nextKey := prevLowLeaf.nextKey, value }
  let lowLeafProof ← getOrRevert (t.prove lowIndex) .panic
  let t ← getOrRevert (t.update lowIndex newLowLeaf) .panic
  let t ← getOrRevert (t.push leaf) .panic
  let leafProof ← getOrRevert (t.prove index) .panic
  pure ({ index, lowLeafProof, leafProof, lowLeafIndex := lowIndex, prevLowLeaf }, t)

/-- Accept a sequence of insertions one after the other. -/
def insertAll [DecidableEq D] :
    List (K × BitVec 64 × IndexedInsertionProof D K) → D →
      Except (IndexedMerkleTreeError D K) D
  | [], root => .ok root
  | (key, value, proof) :: rest, root => do
    let root ← proof.getNewRoot key value root
    insertAll rest root

end

end Intmax.Trees
