import Intmax.Trees.Merkle

/-! # Leaves of one layout

Most trees of the system hold leaves whose preimage always has the same fields.  Without
collisions the root of such a tree fixes its leaves, and a proof that verifies opens the very
leaf that is in the tree.
-/

namespace Intmax.Trees

open Checked Hashing Function Leafable IncrementalMerkleTree

/-- A leaf whose preimage has one layout and fixes the leaf. -/
class FixedLeaf (D V : Type) {B : outParam Type} [Hashing D B] extends Leafable D V where
  preimage : V → List (Item D B)
  hash v := hashInputs (preimage v)
  hash_eq : ∀ v, hash v = hashInputs (preimage v) := by intro v; rfl
  layout : ∀ v w, List.Forall₂ (fun a b => Item.sameKind a b = true) (preimage v) (preimage w)
  injective : Function.Injective preimage
  width : ∀ v, ((preimage v).map Item.width).sum ≠ 8

section
variable {D B V : Type} [Hashing D B] [FixedLeaf D V]

theorem hash_injective (free : CollisionFree D) : Injective (hash : V → D) := by
  intro v w same
  rw [FixedLeaf.hash_eq, FixedLeaf.hash_eq] at same
  exact FixedLeaf.injective (free.inputs _ _ (FixedLeaf.layout v w) same)

theorem fixedLeavesApart (free : CollisionFree D) : LeavesApart D V := by
  intro v a b
  rw [FixedLeaf.hash_eq]
  exact free.apart _ a b (FixedLeaf.width v)

variable {height : Nat} {leaves leaves' : Nat → V}

theorem treeRoot_injective (free : CollisionFree D)
    (same : treeRoot D height leaves = treeRoot D height leaves') :
    ∀ i < 2 ^ height, leaves i = leaves' i := fun i below =>
  hash_injective free (Merkle.root_injective free.nodes same i below)

namespace MerkleProof

variable {proof : MerkleProof D} {leaf : V} {index : BitVec 64}

/-- A proof that leads to the root of a tree opens the tree's own leaf. -/
theorem getRoot_leaf (free : CollisionFree D)
    (reached : proof.getRoot leaf index = treeRoot D height leaves) :
    leaves (index.toNat % 2 ^ height) = leaf := by
  obtain ⟨-, same, -⟩ := getRoot_eq_treeRoot free (fixedLeavesApart free) reached
  exact hash_injective free same

/-- A verified proof opens the tree's own leaf, and with another leaf it leads to the root of
    the updated tree. -/
theorem verify_leaf [DecidableEq D] (free : CollisionFree D)
    (verified : proof.verify leaf index (treeRoot D height leaves) = .ok ()) :
    index.toNat < 2 ^ height ∧ leaves index.toNat = leaf ∧
    ∀ leaf' : V, proof.getRoot leaf' index =
      treeRoot D height (update leaves index.toNat leaf') := by
  obtain ⟨below, same, climbs⟩ := verify_treeRoot free (fixedLeavesApart free) verified
  exact ⟨below, hash_injective free same, climbs⟩

end MerkleProof

end

section
variable {D B V : Type} [Hashing D B] [Leafable D V] {height : Nat}

/-! ## Proofs that exist -/

/-- Every position of a tree has a proof. -/
theorem exists_proof [DecidableEq D] (height : Nat) (leaves : Nat → V) {index : BitVec 64}
    (below : index.toNat < 2 ^ height) :
    ∃ proof : MerkleProof D,
      proof.verify (leaves index.toNat) index (treeRoot D height leaves) = .ok () ∧
      (∀ leaf : V, proof.getRoot leaf index =
        treeRoot D height (update leaves index.toNat leaf)) ∧
      proof.siblings.length = height := by
  obtain ⟨siblings, length, climbs⟩ :=
    Merkle.exists_climb (twoToOne (D := D)) height index.toNat fun i => hash (leaves i)
  rw [Nat.mod_eq_of_lt below] at climbs
  have leads (leaf : V) : (⟨siblings⟩ : MerkleProof D).getRoot leaf index =
      treeRoot D height (update leaves index.toNat leaf) := by
    rw [MerkleProof.getRoot_eq, climbs, treeRoot_update]
  refine ⟨⟨siblings⟩, MerkleProof.verify_ok_iff.mpr ⟨?_, ?_⟩, leads, length⟩
  · simp only [indexInDomain, MerkleProof.height, length, Bool.or_eq_true, decide_eq_true_eq]
    exact Or.inr below
  · rw [leads, update_eq_self]

/-! ## Trees and their roots -/

theorem IncrementalMerkleTree.new_getRoot (height : Nat) :
    (new V height : IncrementalMerkleTree D V).getRoot =
      treeRoot D height fun _ => (emptyLeaf D : V) := by
  rw [(new_faithful height).getRoot]
  rfl

/-- The leaves of a list, and empty ones after them. -/
def listLeaves (D : Type) {V : Type} [Leafable D V] (leaves : List V) (i : Nat) : V :=
  leaves.getD i (Leafable.emptyLeaf D)

omit [Hashing D B] in
theorem listLeaves_append (leaves : List V) (leaf : V) :
    listLeaves D (leaves ++ [leaf]) = update (listLeaves D leaves) leaves.length leaf := by
  funext i
  exact getD_append_singleton _ _ _ _

/-- Nothing is held after the list. -/
theorem listLeaves_length (leaves : List V) :
    listLeaves D leaves leaves.length = emptyLeaf D := by
  simp [listLeaves]

/-- The tree behind the root holds exactly these leaves, from position 0 on. -/
def HoldsExactly (D : Type) {B V : Type} [Hashing D B] [Leafable D V] (height : Nat) (root : D)
    (held : List V) : Prop :=
  root = treeRoot D height (listLeaves D held) ∧
  ∀ leaves : Nat → V, root = treeRoot D height leaves →
    ∀ i < 2 ^ height, leaves i = listLeaves D held i

/-- Push leaves one after the other. -/
def IncrementalMerkleTree.pushAll (t : IncrementalMerkleTree D V) :
    List V → Option (IncrementalMerkleTree D V)
  | [] => some t
  | leaf :: rest => do
    let t ← t.push leaf
    pushAll t rest

theorem IncrementalMerkleTree.Faithful.pushAll {t t' : IncrementalMerkleTree D V} {leaves : List V}
    (faithful : t.Faithful) (pushed : t.pushAll leaves = some t') :
    t'.height = t.height ∧ t'.leaves = t.leaves ++ leaves ∧ t'.Faithful := by
  induction leaves generalizing t with
  | nil =>
    cases pushed
    exact ⟨rfl, by simp, faithful⟩
  | cons leaf rest ih =>
    obtain ⟨next, first, later⟩ := Option.bind_eq_some_iff.mp pushed
    obtain ⟨height, leaves, faithful'⟩ := faithful.push first
    obtain ⟨height', leaves', result⟩ := ih faithful' later
    refine ⟨height'.trans height, ?_, result⟩
    rw [leaves', leaves, List.append_assoc, List.singleton_append]

/-- The root of a tree that leaves were pushed into. -/
theorem pushAll_getRoot {t : IncrementalMerkleTree D V} {leaves : List V}
    (pushed : (new V height).pushAll leaves = some t) :
    t.getRoot = treeRoot D height (listLeaves D leaves) := by
  obtain ⟨same, held, faithful⟩ := (new_faithful height).pushAll pushed
  rw [faithful.getRoot, same]
  congr 1
  funext i
  rw [leafAt, held]
  rfl

/-- Without collisions a root has one list of leaves. -/
theorem HoldsExactly.of_root {D B V : Type} [Hashing D B] [FixedLeaf D V] {height : Nat} {root : D}
    {held : List V} (free : CollisionFree D)
    (behind : root = treeRoot D height (listLeaves D held)) : HoldsExactly D height root held :=
  ⟨behind, fun _ other => treeRoot_injective free (other.symm.trans behind)⟩

structure SparseMerkleTree (D V : Type) where
  merkleTree : MerkleTree D
  leaves : BitVec 64 → Option V

namespace SparseMerkleTree

def new (V : Type) [Leafable D V] (height : Nat) : SparseMerkleTree D V :=
  { merkleTree := .new V height, leaves := fun _ => none }

def getRoot (t : SparseMerkleTree D V) : D := t.merkleTree.getRoot

theorem new_getRoot (height : Nat) : (new V height : SparseMerkleTree D V).getRoot =
    treeRoot D height fun _ => (emptyLeaf D : V) :=
  (MerkleTree.new_commits V height).getRoot

end SparseMerkleTree

end

end Intmax.Trees
