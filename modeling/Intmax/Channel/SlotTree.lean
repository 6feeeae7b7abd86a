import Intmax.Lib.Traversal
import Intmax.Channel.Transfers
import Intmax.Trees.Roots

/-! # The slot tree of a balance state

`slot_tree_root` folds the slot leaf hashes pair by pair, without a tree.  It is one more way to
the root of the perfect tree over the same digests.
-/

namespace Intmax.Trees

open Hashing

/-- A digest as a leaf is its own hash. -/
instance digestLeaf {D B : Type} [Hashing D B] : Leafable D D where
  emptyLeaf := zeroDigest
  hash d := d

end Intmax.Trees

namespace Intmax.Channel

namespace BalanceState

open Checked Hashing Trees Validity

section
variable {D B : Type} [Hashing D B]

def balanceSlotTreeHeight : Nat := 10

theorem pairUp_eq (layer : List D) : pairUp layer = pairLayer layer := by
  induction layer using pairUp.induct with
  | case1 a b rest ih =>
    have half : (a :: b :: rest).length / 2 = rest.length / 2 + 1 := by
      simp
      omega
    rw [pairUp, ih, pairLayer, pairLayer, half, List.range_succ_eq_map]
    simp [mul_add]
  | case2 layer short =>
    cases layer with
    | nil => simp [pairUp, pairLayer]
    | cons a rest =>
      cases rest with
      | nil => simp [pairUp, pairLayer]
      | cons b rest => exact absurd rfl (short a b rest)

theorem pairUp_iterate (f : Nat → D) (n k : Nat) :
    pairUp^[k] (blockLayer f n k) = [Merkle.root twoToOne (n + k) f] := by
  induction k generalizing n with
  | zero => simp [blockLayer, Merkle.block_top]
  | succ k ih =>
    rw [Function.iterate_succ_apply, pairUp_eq, pairLayer_blockLayer, ih]
    congr 2
    omega

variable {state : BalanceState B} {leaves : List D}

theorem slotLeafHashes_length (hashed : state.slotLeafHashes D = some leaves) :
    leaves.length = 2 ^ balanceSlotTreeHeight := by
  rw [mapM_option_length (slotLeafHashes_eq_some.mp hashed).2, List.length_finRange]
  rfl

theorem slotTreeRoot_eq (hashed : state.slotLeafHashes D = some leaves) :
    state.slotTreeRoot D = some (treeRoot D balanceSlotTreeHeight (listLeaves D leaves)) := by
  have length := slotLeafHashes_length hashed
  have layer : leaves = blockLayer (listLeaves D leaves) 0 balanceSlotTreeHeight := by
    have padded := map_hash_padded (D := D) (le_of_eq length)
    rw [length, Nat.sub_self, List.replicate_zero, List.append_nil] at padded
    exact (List.map_id leaves).symm.trans padded
  have folded := pairUp_iterate (listLeaves D leaves) 0 balanceSlotTreeHeight
  rw [← layer, zero_add] at folded
  have unfolds : state.slotTreeRoot D =
      (state.slotLeafHashes D).bind fun leaves =>
        (pairUp^[balanceSlotTreeHeight] leaves).head? := rfl
  rw [unfolds, hashed, Option.bind_some, folded]
  rfl

end

end BalanceState

/-! ## The node map and the perfect tree -/

section
open Checked Hashing Trees BalanceState

variable {D B V : Type} [Hashing D B] [Leafable D V]

/-- An update of leaves as the update of digests that it makes. -/
def hashed (D : Type) {V : Type} [Leafable D V] (update : BitVec 64 × V) : BitVec 64 × D :=
  (update.1, Leafable.hash update.2)

/-- The updates in another order, in which those of one index keep theirs. -/
def Reordered (D : Type) {V : Type} [Leafable D V] (updates : List (BitVec 64 × D))
    (reordered : List (BitVec 64 × V)) : Prop :=
  ∀ index, (updates.filter fun update => update.1 = index) =
    (reordered.map (hashed D)).filter fun update => update.1 = index

variable {height : Nat} {updates : List (BitVec 64 × D)} {reordered : List (BitVec 64 × V)}

omit [Hashing D B] in
theorem Reordered.inside (same : Reordered D updates reordered)
    (inside : ∀ update ∈ updates, update.1.toNat < 2 ^ height) :
    ∀ update ∈ reordered.map (hashed D), update.1.toNat < 2 ^ height := by
  intro update member
  have kept : update ∈ (reordered.map (hashed D)).filter fun other => other.1 = update.1 := by
    simp [member]
  rw [← same] at kept
  exact inside update (List.mem_of_mem_filter kept)

theorem sparse_reordered (bounded : height ≤ 63)
    (inside : ∀ update ∈ updates, update.1.toNat < 2 ^ height)
    (same : Reordered D updates reordered) :
    ∃ sparse, (SparseMerkleTree.new V height).updateAll reordered = some sparse ∧
      sparse.getRoot = Merkle.root twoToOne height (digestsAfter D V updates) := by
  obtain ⟨tree, run, height_eq, commits⟩ := (MerkleTree.new_commits V height).updateLeaves
    (reordered.map (hashed D)) fun update member =>
      indexInDomain_of_lt (same.inside inside update member)
  have mapped := SparseMerkleTree.updateAll_merkleTree (D := D) (.new V height) reordered
  obtain ⟨sparse, found, tree_eq⟩ := Option.map_eq_some_iff.mp (mapped.trans run)
  refine ⟨sparse, found, ?_⟩
  rw [root_digestsAfter_congr (by omega) same, SparseMerkleTree.getRoot, tree_eq, commits.getRoot,
    height_eq]
  rfl

/-- The node map computes the perfect tree over what the updates left at each index.  So do the
    layers, the pushes, the sparse tree in any order that keeps the updates of one index in theirs,
    and the fold of the slot leaves. -/
theorem node_map_refines_perfect_tree [DecidableEq D] {height : Nat} (bounded : height ≤ 63)
    (updates : List (BitVec 64 × D))
    (inside : ∀ update ∈ updates, update.1.toNat < 2 ^ height) :
    ∃ t, (MerkleTree.new V height).updateLeaves updates = some t ∧
      t.getRoot = Merkle.root twoToOne height (digestsAfter D V updates) ∧
      (∀ index : BitVec 64, index.toNat < 2 ^ height → ∃ proof, t.prove index = some proof ∧
        MerkleProof.climbPath proof.siblings ⟨proof.height, index.toNat⟩
          (digestsAfter D V updates index.toNat) = t.getRoot ∧
        ∀ leaf : V, Leafable.hash leaf = digestsAfter D V updates index.toNat →
          proof.verify leaf index t.getRoot = .ok ()) ∧
      (CollisionFree D → ∀ (proof : MerkleProof D) (leaf : V) (index : BitVec 64),
        proof.height = height → proof.verify leaf index t.getRoot = .ok () →
        Leafable.hash leaf = digestsAfter D V updates index.toNat) ∧
      (∀ leaves : List V, leaves.length ≤ 2 ^ height →
        (∀ i < 2 ^ height, Leafable.hash (listLeaves D leaves i) = digestsAfter D V updates i) →
        getMerkleRootFromLeaves D height leaves = .ok t.getRoot ∧
        ∃ tree, (IncrementalMerkleTree.new V height).pushAll leaves = some tree ∧
          tree.getRoot = t.getRoot) ∧
      (∀ reordered : List (BitVec 64 × V), Reordered D updates reordered →
        ∃ sparse, (SparseMerkleTree.new V height).updateAll reordered = some sparse ∧
          sparse.getRoot = t.getRoot) ∧
      ∀ (state : BalanceState B) (leaves : List D), height = balanceSlotTreeHeight →
        state.slotLeafHashes D = some leaves →
        (∀ i < 2 ^ height, listLeaves D leaves i = digestsAfter D V updates i) →
        state.slotTreeRoot D = some t.getRoot := by
  obtain ⟨t, run, height_eq, commits⟩ := (MerkleTree.new_commits V height).updateLeaves
    updates fun update member => indexInDomain_of_lt (inside update member)
  have tall : t.height = height := height_eq
  have root : t.getRoot = Merkle.root twoToOne height (digestsAfter D V updates) := by
    rw [commits.getRoot, tall]
    rfl
  refine ⟨t, run, root, ?_, ?_, ?_, ?_, ?_⟩
  · intro index below
    obtain ⟨proof, proved⟩ : ∃ proof, t.prove index = some proof :=
      ⟨_, if_pos (indexInDomain_of_lt (tall ▸ below))⟩
    refine ⟨proof, proved, ?_, fun leaf same => commits.prove_verify proved same⟩
    rw [commits.climb_prove proved, commits.getRoot]
    congr 1
    exact Function.update_eq_self _ _
  · intro free proof leaf index length verified
    obtain ⟨within, reached⟩ := MerkleProof.verify_ok_iff.mp verified
    rw [MerkleProof.getRoot_eq, root] at reached
    have opened := (Merkle.climb_eq_root free.nodes length reached).1
    rw [Nat.mod_eq_of_lt (MerkleTree.indexInDomain_lt (length ▸ within))] at opened
    exact opened.symm
  · intro leaves fits same
    have perfect : treeRoot D height (listLeaves D leaves) = t.getRoot := by
      rw [root]
      exact Merkle.root_congr same
    obtain ⟨tree, pushed⟩ := (IncrementalMerkleTree.new_faithful (D := D) (V := V)
      height).exists_pushAll bounded (Nat.le_trans (Nat.le_of_eq (Nat.zero_add _)) fits)
    refine ⟨?_, tree, pushed, ?_⟩
    · rw [getMerkleRootFromLeaves_eq bounded fits, perfect]
    · rw [pushAll_getRoot pushed, perfect]
  · intro reordered same
    obtain ⟨sparse, found, sparse_root⟩ := sparse_reordered bounded inside same
    exact ⟨sparse, found, sparse_root.trans root.symm⟩
  · intro state leaves level found same
    subst level
    rw [slotTreeRoot_eq found, root]
    exact congrArg some (Merkle.root_congr same)

/-- Updates of a tree of height 2 that set leaf 0 twice. -/
def sampleUpdates : List (BitVec 64 × Free.Bytes) :=
  [(0, .word 1), (3, .word 2), (0, .word 3), (1, .word 4)]

/-- The later value of leaf 0 is the one in the root, in its opening, in the layers and in the
    sparse tree with the updates in another order. -/
theorem node_map_refines_perfect_tree_overwrite :
    ∃ t : MerkleTree Free.Digest,
      (MerkleTree.new Free.Bytes 2).updateLeaves (sampleUpdates.map (hashed Free.Digest)) =
      some t ∧ t.getRoot = twoToOne
        (twoToOne (Leafable.hash (Free.Bytes.word 3)) (Leafable.hash (Free.Bytes.word 4)))
        (twoToOne (Leafable.hash (Leafable.emptyLeaf Free.Digest : Free.Bytes))
          (Leafable.hash (Free.Bytes.word 2))) ∧
      (∃ proof, t.prove 0 = some proof ∧
        proof.verify (Free.Bytes.word 3) 0 t.getRoot = .ok ()) ∧
      getMerkleRootFromLeaves Free.Digest 2
        [Free.Bytes.word 3, .word 4, Leafable.emptyLeaf Free.Digest, .word 2] = .ok t.getRoot ∧
      ∃ sparse, (SparseMerkleTree.new Free.Bytes 2).updateAll
          [(3, Free.Bytes.word 2), (0, .word 1), (1, .word 4), (0, .word 3)] = some sparse ∧
        sparse.getRoot = t.getRoot := by
  obtain ⟨t, run, root, opens, -, layers, reorders, -⟩ := node_map_refines_perfect_tree
    (B := Free.Bytes) (V := Free.Bytes) (by decide : 2 ≤ 63)
    (sampleUpdates.map (hashed Free.Digest)) (by decide)
  obtain ⟨proof, proved, -, verified⟩ := opens 0 (by decide)
  refine ⟨t, run, root, ⟨proof, proved, verified _ rfl⟩, (layers _ (by decide) ?_).1,
    reorders _ fun index => ?_⟩
  · decide
  · obtain rfl | rfl | rfl | ⟨other, other', other''⟩ : index = 0 ∨
        index = 1 ∨ index = 3 ∨ 0 ≠ index ∧ 1 ≠ index ∧ 3 ≠ index := by grind
    · rfl
    · rfl
    · rfl
    · simp only [sampleUpdates, hashed, List.map, List.filter, other, other',
        other'', decide_false]

/-- Two updates of one index do not commute. -/
theorem updates_of_one_index_ordered :
    ∃ updates updates' : List (BitVec 64 × Free.Bytes), updates.Perm updates' ∧
      (∀ update ∈ updates, update.1.toNat < 2 ^ 1) ∧
      ∃ t t' : SparseMerkleTree Free.Digest Free.Bytes,
        (SparseMerkleTree.new Free.Bytes 1).updateAll updates = some t ∧
        (SparseMerkleTree.new Free.Bytes 1).updateAll updates' = some t' ∧
        t.getRoot ≠ t'.getRoot := by
  refine ⟨[(0, .word 1), (0, .word 2)], [(0, .word 2), (0, .word 1)], .swap _ _ _, by decide,
    _, _, rfl, rfl, by decide⟩

end

end Intmax.Channel
