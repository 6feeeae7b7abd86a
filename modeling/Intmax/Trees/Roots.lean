import Intmax.Trees.Leaves
import Mathlib.Data.List.Induction

/-! # Four ways to one root

The node map, the layers of `get_merkle_root_from_leaves`, the tree that leaves are pushed into and
the sparse tree all compute the root of the perfect tree over the same digests.  What a sequence of
updates leaves at an index is its last update there.
-/

namespace Intmax.Trees

open Checked Hashing List Leafable IncrementalMerkleTree

section
variable {D B V : Type} [Hashing D B] [Leafable D V]

/-! ## Sequences of updates -/

def MerkleTree.updateLeaves (t : MerkleTree D) (updates : List (BitVec 64 × D)) :
    Option (MerkleTree D) :=
  updates.foldlM (fun t update => t.updateLeaf update.1 update.2) t

/-- The digests of the perfect tree after updates of the empty one. -/
def digestsAfter (D V : Type) [Leafable D V] (updates : List (BitVec 64 × D)) : Nat → D :=
  updates.foldl (fun f update => Function.update f update.1.toNat update.2)
    fun _ => Leafable.hash (Leafable.emptyLeaf D : V)

theorem MerkleTree.Commits.updateLeaves {t : MerkleTree D} {f : Nat → D} (commits : t.Commits f)
    (updates : List (BitVec 64 × D))
    (inside : ∀ update ∈ updates, indexInDomain update.1 t.height = true) :
    ∃ t', t.updateLeaves updates = some t' ∧ t'.height = t.height ∧
      t'.Commits (updates.foldl (fun f update => Function.update f update.1.toNat update.2) f) := by
  induction updates generalizing t f with
  | nil => exact ⟨t, rfl, rfl, commits⟩
  | cons update rest ih =>
    have first : indexInDomain update.1 t.height = true := inside update mem_cons_self
    obtain ⟨next, updated⟩ : ∃ next, t.updateLeaf update.1 update.2 = some next :=
      ⟨_, if_pos first⟩
    obtain ⟨same, commits'⟩ := commits.updateLeaf updated
    obtain ⟨last, run, height, result⟩ := ih commits' fun update' later => by
      rw [same]
      exact inside update' (mem_cons_of_mem _ later)
    refine ⟨last, ?_, height.trans same, result⟩
    rw [MerkleTree.updateLeaves, foldlM_cons, updated]
    exact run

variable {height : Nat} {leaves : List V} {t : IncrementalMerkleTree D V}

theorem indexInDomain_of_lt {index : BitVec 64} (below : index.toNat < 2 ^ height) :
    indexInDomain index height = true := by
  simp [indexInDomain, below]

omit [Hashing D B] in
/-- The last update of an index is what counts. -/
theorem digestsAfter_eq (updates : List (BitVec 64 × D)) (index : BitVec 64) :
    digestsAfter D V updates index.toNat =
      (((updates.filter fun update => update.1 = index).getLast?).map (·.2)).getD
        (hash (emptyLeaf D : V)) := by
  induction updates using reverseRecOn with
  | nil => rfl
  | append_singleton rest update ih =>
    rw [digestsAfter, foldl_append, filter_append]
    by_cases here : update.1 = index
    · simp [here]
    · have other : index.toNat ≠ update.1.toNat := fun same =>
        here (BitVec.eq_of_toNat_eq same.symm)
      simp only [foldl_cons, foldl_nil, Function.update_of_ne other, here, decide_false,
        filter_cons, Bool.false_eq_true, if_false, filter_nil, append_nil]
      exact ih

/-- Updates of different indices commute. -/
theorem root_digestsAfter_congr {updates updates' : List (BitVec 64 × D)} (bounded : height ≤ 64)
    (same : ∀ index, (updates.filter fun update => update.1 = index) =
      updates'.filter fun update => update.1 = index) :
    Merkle.root twoToOne height (digestsAfter D V updates) =
      Merkle.root twoToOne height (digestsAfter D V updates') := by
  refine Merkle.root_congr fun i below => ?_
  have small : i < 2 ^ 64 := lt_of_lt_of_le below (Nat.pow_le_pow_right two_pos bounded)
  have index : (BitVec.ofNat 64 i).toNat = i := by
    rw [BitVec.toNat_ofNat, Nat.mod_eq_of_lt small]
  rw [← index, digestsAfter_eq, digestsAfter_eq, same]

/-! ## Layers -/

inductive GetRootFromLeavesError where
  | tooManyLeaves (count : Nat)
  | notPowerOfTwo (count : Nat)

/-- One layer from the layer below. -/
def pairLayer (layer : List D) : List D :=
  (List.range (layer.length / 2)).map fun i =>
    twoToOne (layer.getD (2 * i) zeroDigest) (layer.getD (2 * i + 1) zeroDigest)

theorem pairLayer_length (layer : List D) : (pairLayer layer).length = layer.length / 2 := by
  simp [pairLayer]

/-- The loop of `get_merkle_root_from_full_leaves`. -/
def reduceLayers (layer : List D) : Except GetRootFromLeavesError D :=
  if 1 < layer.length then
    if layer.length % 2 = 1 then .error (.notPowerOfTwo layer.length)
    else reduceLayers (pairLayer layer)
  else .ok (layer.headD zeroDigest)
termination_by layer.length
decreasing_by
  rw [pairLayer_length]
  omega

def getMerkleRootFromFullLeaves (height : Nat) (leaves : List V) :
    Except GetRootFromLeavesError D := do
  revertIf (leaves.length ≠ 2 ^ (height % 64)) (.tooManyLeaves leaves.length)
  let layer := leaves.map Leafable.hash
  revertIf (layer.isEmpty = true) (.tooManyLeaves 0)
  reduceLayers layer

/-- A shift of a 64-bit word takes its amount modulo 64. -/
def getMerkleRootFromLeaves (D : Type) {B V : Type} [Hashing D B] [Leafable D V] (height : Nat)
    (leaves : List V) : Except GetRootFromLeavesError D := do
  revertIf (2 ^ (height % 64) < leaves.length) (.tooManyLeaves leaves.length)
  let leaves := leaves ++ List.replicate (2 ^ (height % 64) - leaves.length) (Leafable.emptyLeaf D)
  getMerkleRootFromFullLeaves height leaves

/-- The layer of the roots of all blocks of `2 ^ n` digests. -/
def blockLayer (f : Nat → D) (n k : Nat) : List D :=
  (List.range (2 ^ k)).map (Merkle.block twoToOne f n)

theorem blockLayer_length (f : Nat → D) (n k : Nat) : (blockLayer f n k).length = 2 ^ k := by
  simp [blockLayer]

theorem pairLayer_blockLayer (f : Nat → D) (n k : Nat) :
    pairLayer (blockLayer f n (k + 1)) = blockLayer f (n + 1) k := by
  have half : 2 ^ (k + 1) / 2 = 2 ^ k := by rw [pow_succ, Nat.mul_div_cancel _ two_pos]
  rw [pairLayer, blockLayer_length, half]
  conv_rhs => rw [blockLayer]
  refine map_congr_left fun i member => ?_
  have below := mem_range.mp member
  have at_index {j : Nat} (inside : j < 2 ^ (k + 1)) :
      (blockLayer f n (k + 1)).getD j zeroDigest = Merkle.block twoToOne f n j := by
    simp [blockLayer, inside]
  rw [at_index (by rw [pow_succ]; omega), at_index (by rw [pow_succ]; omega), Merkle.block_succ]

theorem reduceLayers_blockLayer (f : Nat → D) (n k : Nat) :
    reduceLayers (blockLayer f n k) = .ok (Merkle.root twoToOne (n + k) f) := by
  induction k generalizing n with
  | zero =>
    rw [reduceLayers, blockLayer_length, if_neg (by decide)]
    exact congrArg Except.ok Merkle.block_top
  | succ k ih =>
    have even : 2 ^ (k + 1) % 2 ≠ 1 := by rw [pow_succ]; omega
    have several : 1 < 2 ^ (k + 1) := Nat.one_lt_two_pow (by omega)
    rw [reduceLayers, blockLayer_length, if_pos several, if_neg even, pairLayer_blockLayer, ih]
    congr 2
    omega

/-- The padded leaves are the bottom layer. -/
theorem map_hash_padded (fits : leaves.length ≤ 2 ^ height) :
    (leaves ++ replicate (2 ^ height - leaves.length) (emptyLeaf D)).map
      hash = blockLayer (fun i => (hash (listLeaves D leaves i) : D)) 0 height := by
  refine ext_getElem (by simp [blockLayer]; omega) fun i inside _ => ?_
  simp only [getElem_map, blockLayer, getElem_range, Merkle.block_zero, listLeaves]
  congr 1
  rw [getElem_append]
  split
  case isTrue held => rw [getD_eq_getElem _ _ held]
  case isFalse past => rw [getElem_replicate, getD_eq_default _ _ (by omega)]

theorem getMerkleRootFromLeaves_eq (bounded : height ≤ 63) (fits : leaves.length ≤ 2 ^ height) :
    getMerkleRootFromLeaves D height leaves = .ok (treeRoot D height (listLeaves D leaves)) := by
  have amount : height % 64 = height := Nat.mod_eq_of_lt (by omega)
  have full : (leaves ++ replicate (2 ^ height - leaves.length)
      (emptyLeaf D : V)).length = 2 ^ height := by simp; omega
  have nonempty : (blockLayer (fun i => (hash (listLeaves D leaves i) : D)) 0
      height).isEmpty = false := by
    rw [← Bool.not_eq_true, isEmpty_iff_length_eq_zero, blockLayer_length]
    exact ne_of_gt (Nat.two_pow_pos height)
  simp only [getMerkleRootFromLeaves, getMerkleRootFromFullLeaves, amount, bind_ok, revertIf_ok,
    exists_unit, full, map_hash_padded fits, nonempty, reduceLayers_blockLayer, zero_add]
  exact ⟨not_lt.mpr fits, fun different => different rfl, Bool.false_ne_true, rfl⟩

/-! ## The tree that leaves are pushed into -/

theorem IncrementalMerkleTree.exists_push (bounded : t.height ≤ 63)
    (room : t.leaves.length < 2 ^ t.height) (leaf : V) : ∃ next, t.push leaf = some next := by
  have amount : t.height % 64 = t.height := Nat.mod_eq_of_lt (by omega)
  have inside : indexInDomain (BitVec.ofNat 64 t.leaves.length) t.merkleTree.height = true := by
    refine indexInDomain_of_lt (lt_of_le_of_lt ?_ room)
    rw [BitVec.toNat_ofNat]
    exact Nat.mod_le _ _
  simp only [push, amount, room, if_true, MerkleTree.updateLeaf, inside]
  exact ⟨_, rfl⟩

theorem IncrementalMerkleTree.Faithful.exists_pushAll (faithful : t.Faithful)
    (bounded : t.height ≤ 63) (fits : t.leaves.length + leaves.length ≤ 2 ^ t.height) :
    ∃ t', t.pushAll leaves = some t' := by
  induction leaves generalizing t with
  | nil => exact ⟨t, rfl⟩
  | cons leaf rest ih =>
    rw [length_cons] at fits
    have room : t.leaves.length < 2 ^ t.height := by omega
    obtain ⟨next, pushed⟩ := exists_push bounded room leaf
    obtain ⟨height, held, faithful'⟩ := faithful.push pushed
    have longer : next.leaves.length = t.leaves.length + 1 := by
      rw [held, length_append, length_singleton]
    obtain ⟨last, later⟩ := ih faithful' (height ▸ bounded) (by rw [height, longer]; omega)
    refine ⟨last, ?_⟩
    rw [IncrementalMerkleTree.pushAll, pushed]
    exact later

/-! ## The sparse tree -/

namespace SparseMerkleTree

def update (t : SparseMerkleTree D V) (index : BitVec 64) (leaf : V) :
    Option (SparseMerkleTree D V) := do
  let merkleTree ← t.merkleTree.updateLeaf index (Leafable.hash leaf)
  some { merkleTree, leaves := Function.update t.leaves index (some leaf) }

def updateAll (t : SparseMerkleTree D V) (updates : List (BitVec 64 × V)) :
    Option (SparseMerkleTree D V) :=
  updates.foldlM (fun t update => t.update update.1 update.2) t

theorem updateAll_merkleTree (t : SparseMerkleTree D V) (updates : List (BitVec 64 × V)) :
    (t.updateAll updates).map (·.merkleTree) =
      t.merkleTree.updateLeaves (updates.map fun update => (update.1, hash update.2)) := by
  induction updates generalizing t with
  | nil => rfl
  | cons update rest ih =>
    simp [updateAll, MerkleTree.updateLeaves, SparseMerkleTree.update, Option.bind_assoc]
    cases t.merkleTree.updateLeaf update.1 (hash update.2) with
    | none => rfl
    | some merkleTree => exact ih { merkleTree, leaves := _ }

end SparseMerkleTree

end

end Intmax.Trees
