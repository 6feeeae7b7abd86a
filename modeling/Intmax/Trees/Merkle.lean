import Intmax.Circuits.Hashing
import Intmax.Lib.Checked
import Intmax.Lib.Merkle
import Mathlib.Data.Nat.Bitwise

/-! # Merkle trees and Merkle proofs

`MerkleTree` keeps the nodes that differ from those of the empty tree in a map, and a proof is
the list of siblings on the way up.  A tree that commits to a function of leaf digests keeps
committing to the updated function, and its own proofs lead back to its root.  A proof that
somebody else made is a list of digests of any length.
-/

namespace Intmax.Trees

open Checked Hashing Merkle Function List Option

/-- What can be a leaf of a tree. -/
class Leafable (D V : Type) where
  emptyLeaf : V
  hash : V → D

/-- The low `length` bits of `value`, the lowest bit being the last step of the path. -/
structure BitPath where
  length : Nat
  value : Nat
deriving DecidableEq

namespace BitPath

def pop (path : BitPath) : Option (Bool × BitPath) :=
  if path.length = 0 then none
  else some (path.value % 2 == 1, ⟨path.length - 1, path.value / 2⟩)

/-- The path with its last step the other way. -/
def sibling (path : BitPath) : BitPath := { path with value := path.value ^^^ 1 }

end BitPath

/-- `index < 2 ^ height`; an index has 64 bits. -/
def indexInDomain (index : BitVec 64) (height : Nat) : Bool :=
  64 ≤ height || index.toNat < 2 ^ height

section
variable {D B : Type} [Hashing D B]

/-! ## Trees -/

structure MerkleTree (D : Type) where
  height : Nat
  nodeHashes : BitPath → Option D
  zeroHashes : List D

namespace MerkleTree

/-- The roots of the empty trees of heights `0, 1, …`, from the lowest on. -/
def zeroHashesFrom (h : D) : Nat → List D
  | 0 => [h]
  | height + 1 => h :: zeroHashesFrom (twoToOne h h) height

def new (V : Type) [Leafable D V] (height : Nat) : MerkleTree D :=
  { height, nodeHashes := fun _ => none
    zeroHashes := zeroHashesFrom (Leafable.hash (Leafable.emptyLeaf D : V)) height }

def getNodeHash (t : MerkleTree D) (path : BitPath) : D :=
  match t.nodeHashes path with
  | some h => h
  | none => t.zeroHashes.getD (t.height - path.length) zeroDigest

def getRoot (t : MerkleTree D) : D := t.getNodeHash ⟨0, 0⟩

def insert (t : MerkleTree D) (path : BitPath) (h : D) : MerkleTree D :=
  { t with nodeHashes := Function.update t.nodeHashes path (some h) }

/-- The loop of `update_leaf`: the nodes above `path`, whose own node is `h`. -/
def updateAbove : Nat → BitPath → D → MerkleTree D → MerkleTree D
  | 0, _, _, t => t
  | n + 1, path, h, t =>
    let sibling := t.getNodeHash path.sibling
    match path.pop with
    | none => t
    | some (bit, path) =>
      let h := if bit then twoToOne sibling h else twoToOne h sibling
      updateAbove n path h (t.insert path h)

/-- An index outside the tree panics. -/
def updateLeaf (t : MerkleTree D) (index : BitVec 64) (leafHash : D) : Option (MerkleTree D) :=
  if indexInDomain index t.height then
    let path : BitPath := ⟨t.height, index.toNat⟩
    some (updateAbove t.height path leafHash (t.insert path leafHash))
  else none

/-- The loop of `prove`. -/
def siblingsAbove (t : MerkleTree D) : Nat → BitPath → List D
  | 0, _ => []
  | n + 1, path =>
    let sibling := t.getNodeHash path.sibling
    match path.pop with
    | none => [sibling]
    | some (_, path) => sibling :: siblingsAbove t n path

end MerkleTree

/-! ## Proofs -/

structure MerkleProof (D : Type) where
  siblings : List D

/-- `MerkleProofError::VerificationFailed`, by what its text reports. -/
inductive MerkleProofError (D : Type) where
  | indexOutside (index : BitVec 64) (height : Nat)
  | rootMismatch (proofRoot merkleRoot : D)

namespace MerkleProof

def height (proof : MerkleProof D) : Nat := proof.siblings.length

/-- The loop of `get_root`. -/
def climbPath : List D → BitPath → D → D
  | [], _, state => state
  | sibling :: rest, path, state =>
    match path.pop with
    | none => state
    | some (bit, path) =>
      climbPath rest path (if bit then twoToOne sibling state else twoToOne state sibling)

variable {V : Type} [Leafable D V]

def getRoot (proof : MerkleProof D) (leafData : V) (index : BitVec 64) : D :=
  climbPath proof.siblings ⟨proof.height, index.toNat⟩ (Leafable.hash leafData)

def verify [DecidableEq D] (proof : MerkleProof D) (leafData : V) (index : BitVec 64)
    (merkleRoot : D) : Except (MerkleProofError D) Unit := do
  revertIf (indexInDomain index proof.height = false) (.indexOutside index proof.height)
  let proofRoot := proof.getRoot leafData index
  revertIf (proofRoot ≠ merkleRoot) (.rootMismatch proofRoot merkleRoot)

end MerkleProof

def MerkleTree.prove (t : MerkleTree D) (index : BitVec 64) : Option (MerkleProof D) :=
  if indexInDomain index t.height then
    some ⟨t.siblingsAbove t.height ⟨t.height, index.toNat⟩⟩
  else none

/-! ## Proofs as climbs -/

namespace MerkleProof

theorem climbPath_eq {siblings : List D} {path : BitPath} (length : path.length = siblings.length)
    (x : D) : climbPath siblings path x = climb twoToOne siblings path.value x := by
  induction siblings generalizing path x with
  | nil => rfl
  | cons sibling rest ih =>
    have nonempty : path.length ≠ 0 := by simp [length]
    have shorter : path.length - 1 = rest.length := by simp [length]
    simp [climbPath, BitPath.pop, if_neg nonempty, climb]
    exact ih shorter _

variable {V : Type} [Leafable D V]

theorem getRoot_eq (proof : MerkleProof D) (leafData : V) (index : BitVec 64) :
    proof.getRoot leafData index =
      climb twoToOne proof.siblings index.toNat (Leafable.hash leafData) :=
  climbPath_eq rfl _

@[simp] theorem verify_ok_iff [DecidableEq D] {proof : MerkleProof D} {leafData : V}
    {index : BitVec 64} {merkleRoot : D} :
    proof.verify leafData index merkleRoot = .ok () ↔
      indexInDomain index proof.height = true ∧ proof.getRoot leafData index = merkleRoot := by
  simp [verify]

end MerkleProof

/-! ## What a tree commits to -/

namespace MerkleTree

/-- Every node is the root over its block of the leaf digests. -/
def Commits (t : MerkleTree D) (f : Nat → D) : Prop :=
  ∀ k ≤ t.height, ∀ v < 2 ^ k,
    t.getNodeHash ⟨k, v⟩ = block twoToOne f (t.height - k) v

variable {t : MerkleTree D} {f : Nat → D}

theorem Commits.getRoot (commits : t.Commits f) : t.getRoot = root twoToOne t.height f := by
  have top := commits 0 (Nat.zero_le _) 0 Nat.one_pos
  rwa [Nat.sub_zero, block_top] at top

/-- One level more below a tree of equal digests. -/
theorem root_twoToOne (h : D) (k : Nat) :
    root twoToOne k (fun _ => twoToOne h h) = root twoToOne (k + 1) fun _ => h := by
  induction k with
  | zero => rfl
  | succ k ih =>
    rw [root, ih]
    rfl

theorem zeroHashesFrom_getD (h : D) {height k : Nat} (below : k ≤ height) :
    (zeroHashesFrom h height).getD k zeroDigest = root twoToOne k fun _ => h := by
  induction height generalizing h k with
  | zero =>
    obtain rfl : k = 0 := by omega
    rfl
  | succ height ih =>
    cases k with
    | zero => rfl
    | succ k =>
      rw [zeroHashesFrom, getD_cons_succ, ih _ (by omega)]
      exact root_twoToOne h k

theorem new_commits (V : Type) [Leafable D V] (height : Nat) :
    (new V height : MerkleTree D).Commits fun _ => Leafable.hash (Leafable.emptyLeaf D : V) := by
  intro k inside v _
  exact zeroHashesFrom_getD _ (Nat.sub_le _ _)

/-- Every node is right except those above the node `v` of level `n`. -/
def CommitsBeside (t : MerkleTree D) (f : Nat → D) (n v : Nat) : Prop :=
  ∀ k ≤ t.height, ∀ w < 2 ^ k, (k < n → w ≠ v / 2 ^ (n - k)) →
    t.getNodeHash ⟨k, w⟩ = block twoToOne f (t.height - k) w

theorem getNodeHash_insert_self (t : MerkleTree D) (path : BitPath) (h : D) :
    (t.insert path h).getNodeHash path = h := by
  simp [getNodeHash, insert]

theorem getNodeHash_insert_of_ne (t : MerkleTree D) {path other : BitPath} (apart : other ≠ path)
    (h : D) : (t.insert path h).getNodeHash other = t.getNodeHash other := by
  simp [getNodeHash, insert, update_of_ne apart]

/-- The other child of a node's parent. -/
theorem sibling_value (v : Nat) : v ^^^ 1 = if v % 2 = 1 then v - 1 else v + 1 := by
  have half : (v ^^^ 1) / 2 = v / 2 := by simp [Nat.xor_div_two]
  have parity : (v ^^^ 1) % 2 = (v + 1) % 2 := Nat.xor_mod_two_eq
  split <;> omega

/-- The parent of a node, from the node and its sibling. -/
theorem block_parent (f : Nat → D) (n v : Nat) :
    (if (v % 2 == 1) = true then
      twoToOne (block twoToOne f n (v ^^^ 1)) (block twoToOne f n v)
    else twoToOne (block twoToOne f n v) (block twoToOne f n (v ^^^ 1))) =
      block twoToOne f (n + 1) (v / 2) := by
  rw [block_succ, sibling_value]
  by_cases odd : v % 2 = 1
  · simp [odd]
    rw [show 2 * (v / 2) = v - 1 by omega, show v - 1 + 1 = v by omega]
  · simp [odd]
    rw [show 2 * (v / 2) = v by omega]

theorem updateAbove_height (n : Nat) (path : BitPath) (h : D) (t : MerkleTree D) :
    (updateAbove n path h t).height = t.height := by
  induction n generalizing path h t with
  | zero => rfl
  | succ n ih =>
    rw [updateAbove]
    split
    case h_1 => rfl
    case h_2 bit rest _ => exact ih rest _ _

theorem CommitsBeside.updateAbove {n v : Nat} {h : D} (inside : n ≤ t.height) (below : v < 2 ^ n)
    (beside : t.CommitsBeside f n v) (node : h = block twoToOne f (t.height - n) v) :
    (updateAbove n ⟨n, v⟩ h t).Commits f := by
  induction n generalizing t v h with
  | zero =>
    intro k inside' w below'
    exact beside k inside' w below' fun none => absurd none (Nat.not_lt_zero k)
  | succ n ih =>
    have other : v ^^^ 1 < 2 ^ (n + 1) := by
      rw [sibling_value]
      split <;> omega
    -- the sibling is right, and so is the parent made of both
    have sibling := beside (n + 1) inside (v ^^^ 1) other fun up => absurd up (lt_irrefl _)
    have parent := block_parent f (t.height - (n + 1)) v
    rw [← sibling, ← node, show t.height - (n + 1) + 1 = t.height - n by omega] at parent
    simp only [MerkleTree.updateAbove, BitPath.pop, Nat.add_one_ne_zero, if_false,
      BitPath.sibling, Nat.add_sub_cancel, parent]
    refine ih (by simp only [insert]; omega) (by omega) ?_ rfl
    intro k inside' w below' apart
    by_cases here : (⟨k, w⟩ : BitPath) = ⟨n, v / 2⟩
    · rw [here, getNodeHash_insert_self]
      cases here
      rfl
    · rw [getNodeHash_insert_of_ne _ here]
      refine beside k inside' w below' fun up same => ?_
      rw [same] at here apart
      by_cases level : k = n
      · subst level
        apply here
        rw [Nat.add_sub_cancel_left, Nat.pow_one]
      · apply apart (by omega)
        rw [Nat.div_div_eq_div_mul, ← Nat.pow_succ', show n + 1 - k = n - k + 1 by omega]

theorem indexInDomain_lt {index : BitVec 64} {height : Nat}
    (inside : indexInDomain index height = true) : index.toNat < 2 ^ height := by
  simp [indexInDomain] at inside
  rcases inside with tall | inside
  · exact lt_of_lt_of_le index.isLt (Nat.pow_le_pow_right two_pos tall)
  · exact inside

/-- An updated tree commits to the updated digests. -/
theorem Commits.updateLeaf {t' : MerkleTree D} {index : BitVec 64} {h : D} (commits : t.Commits f)
    (updated : t.updateLeaf index h = some t') :
    t'.height = t.height ∧ t'.Commits (update f index.toNat h) := by
  unfold MerkleTree.updateLeaf at updated
  split at updated
  case isTrue inside =>
    cases updated
    have below := indexInDomain_lt inside
    refine ⟨updateAbove_height _ _ _ _, ?_⟩
    refine CommitsBeside.updateAbove (le_refl _) below ?_ ?_
    · intro k inside' w below' apart
      by_cases here : (⟨k, w⟩ : BitPath) = ⟨t.height, index.toNat⟩
      · rw [here, getNodeHash_insert_self]
        cases here
        simp [insert, block_zero]
      · rw [getNodeHash_insert_of_ne _ here, commits k inside' w below']
        refine (block_update_of_ne ?_ _).symm
        rcases Nat.lt_or_eq_of_le inside' with up | rfl
        · exact (apart up).symm
        · intro same
          apply here
          simp [insert] at same
          rw [same]
          rfl
    · simp [insert, block_zero]
  case isFalse => cases updated

/-- The siblings of a tree lead any digest up to the root of the tree it is put into. -/
theorem Commits.climb_siblingsAbove (commits : t.Commits f) {n i : Nat} (inside : n ≤ t.height)
    (below : i < 2 ^ t.height) (y : D) :
    MerkleProof.climbPath (t.siblingsAbove n ⟨n, i / 2 ^ (t.height - n)⟩)
      ⟨n, i / 2 ^ (t.height - n)⟩
      (block twoToOne (update f i y) (t.height - n) (i / 2 ^ (t.height - n))) =
      root twoToOne t.height (update f i y) := by
  induction n with
  | zero =>
    rw [siblingsAbove, MerkleProof.climbPath, Nat.sub_zero, Nat.div_eq_of_lt below, block_top]
  | succ n ih =>
    have levels : t.height - (n + 1) + 1 = t.height - n := by omega
    have split : 2 ^ t.height = 2 ^ (n + 1) * 2 ^ (t.height - (n + 1)) := by
      rw [← pow_add]
      congr 1
      omega
    have upper : i / 2 ^ (t.height - (n + 1)) < 2 ^ (n + 1) := by
      rw [Nat.div_lt_iff_lt_mul (Nat.two_pow_pos _), ← split]
      exact below
    generalize position : i / 2 ^ (t.height - (n + 1)) = v at upper ⊢
    have half : v / 2 = i / 2 ^ (t.height - n) := by
      rw [← position, Nat.div_div_eq_div_mul, ← Nat.pow_succ, Nat.succ_eq_add_one, levels]
    have other : v ^^^ 1 < 2 ^ (n + 1) ∧ v ≠ v ^^^ 1 := by
      rw [sibling_value]
      split <;> omega
    -- the sibling is off the path of the index, so it is the same in both trees
    have sibling := commits (n + 1) inside (v ^^^ 1) other.1
    have beside : i / 2 ^ (t.height - (n + 1)) ≠ v ^^^ 1 := position ▸ other.2
    rw [← block_update_of_ne beside y] at sibling
    have parent := block_parent (update f i y) (t.height - (n + 1)) v
    rw [levels, half] at parent
    simp only [siblingsAbove, BitPath.pop, Nat.add_one_ne_zero, if_false, BitPath.sibling,
      Nat.add_sub_cancel, MerkleProof.climbPath, sibling, half, parent]
    exact ih (by omega)

theorem siblingsAbove_length (t : MerkleTree D) (n v : Nat) :
    (t.siblingsAbove n ⟨n, v⟩).length = n := by
  induction n generalizing v with
  | zero => rfl
  | succ n ih => simp [siblingsAbove, BitPath.pop, ih]

/-- A tree proves every index inside it, with as many siblings as it is high. -/
theorem prove_eq_some_iff {index : BitVec 64} {proof : MerkleProof D} :
    t.prove index = some proof ↔ indexInDomain index t.height = true ∧
      proof = ⟨t.siblingsAbove t.height ⟨t.height, index.toNat⟩⟩ := by
  unfold prove
  split
  case isTrue inside => simp [inside, eq_comm]
  case isFalse outside => simp [outside]

theorem prove_height {index : BitVec 64} {proof : MerkleProof D}
    (proved : t.prove index = some proof) : proof.height = t.height := by
  obtain ⟨-, rfl⟩ := prove_eq_some_iff.mp proved
  exact siblingsAbove_length t _ _

/-- The loop of `get_root` over a tree's own siblings gives the root of the tree with the digest
    put at the index. -/
theorem Commits.climb_prove {index : BitVec 64} {proof : MerkleProof D} (commits : t.Commits f)
    (proved : t.prove index = some proof) (y : D) :
    MerkleProof.climbPath proof.siblings ⟨proof.height, index.toNat⟩ y =
      root twoToOne t.height (update f index.toNat y) := by
  obtain ⟨inside, rfl⟩ := prove_eq_some_iff.mp proved
  have climbs := commits.climb_siblingsAbove (le_refl _) (indexInDomain_lt inside) y
  rw [Nat.sub_self, pow_zero, Nat.div_one, block_zero, update_self] at climbs
  rw [prove_height proved]
  exact climbs

theorem Commits.prove_getRoot {V : Type} [Leafable D V] {index : BitVec 64} {proof : MerkleProof D}
    (commits : t.Commits f) (proved : t.prove index = some proof) (leafData : V) :
    proof.getRoot leafData index =
      root twoToOne t.height (update f index.toNat (Leafable.hash leafData)) :=
  commits.climb_prove proved _

/-- A tree's own proof of a leaf verifies. -/
theorem Commits.prove_verify [DecidableEq D] {V : Type} [Leafable D V] {index : BitVec 64}
    {proof : MerkleProof D} {leafData : V} (commits : t.Commits f)
    (proved : t.prove index = some proof) (leaf : Leafable.hash leafData = f index.toNat) :
    proof.verify leafData index t.getRoot = .ok () := by
  refine MerkleProof.verify_ok_iff.mpr ⟨?_, ?_⟩
  · rw [prove_height proved]
    exact (prove_eq_some_iff.mp proved).1
  · rw [commits.prove_getRoot proved, leaf, update_eq_self, commits.getRoot]

end MerkleTree

/-! ## Proofs from anywhere -/

variable {V : Type} [Leafable D V]

/-- The root of the tree of a height over `leaves`. -/
def treeRoot (D : Type) {B V : Type} [Hashing D B] [Leafable D V] (height : Nat)
    (leaves : Nat → V) : D :=
  root twoToOne height fun i => Leafable.hash (leaves i)

/-- The digests of leaves, one of them replaced. -/
theorem hash_update (leaves : Nat → V) (i : Nat) (leaf : V) :
    (fun j => (Leafable.hash (update leaves i leaf j) : D)) =
      update (fun j => Leafable.hash (leaves j)) i (Leafable.hash leaf) := by
  funext j
  by_cases here : j = i
  · rw [here, update_self, update_self]
  · rw [update_of_ne here, update_of_ne here]

theorem treeRoot_update (height i : Nat) (leaves : Nat → V) (leaf : V) :
    treeRoot D height (update leaves i leaf) =
      root twoToOne height
        (update (fun i => Leafable.hash (leaves i)) i (Leafable.hash leaf)) := by
  rw [treeRoot, hash_update]

/-- A leaf that hashes apart from every node. -/
def LeavesApart (D : Type) {B : Type} (V : Type) [Hashing D B] [Leafable D V] : Prop :=
  ∀ leaf : V, Apart twoToOne (Leafable.hash leaf : D)

namespace MerkleProof

variable {proof : MerkleProof D} {leafData : V} {index : BitVec 64} {height : Nat}
  {leaves : Nat → V}

/-- A proof of the tree's height that leads to its root opens the tree's own leaf, and with
    another leaf it leads to the root of the updated tree. -/
theorem getRoot_of_length (free : CollisionFree D) (length : proof.siblings.length = height)
    (reached : proof.getRoot leafData index = treeRoot D height leaves) :
    (Leafable.hash (leaves (index.toNat % 2 ^ height)) : D) = Leafable.hash leafData ∧
    ∀ leaf : V, proof.getRoot leaf index =
      treeRoot D height (update leaves (index.toNat % 2 ^ height) leaf) := by
  rw [getRoot_eq] at reached
  obtain ⟨leaf, climbs⟩ := climb_eq_root free.nodes length reached
  refine ⟨leaf, fun leaf' => ?_⟩
  rw [getRoot_eq, climbs, treeRoot_update]

/-- Leaves that hash apart from nodes leave no other height to a proof. -/
theorem getRoot_eq_treeRoot (free : CollisionFree D) (apart : LeavesApart D V)
    (reached : proof.getRoot leafData index = treeRoot D height leaves) :
    proof.height = height ∧
    (Leafable.hash (leaves (index.toNat % 2 ^ height)) : D) = Leafable.hash leafData ∧
    ∀ leaf : V, proof.getRoot leaf index =
      treeRoot D height (update leaves (index.toNat % 2 ^ height) leaf) := by
  have climbs := reached
  rw [getRoot_eq] at climbs
  have length : proof.siblings.length = height :=
    length_of_climb free.nodes (apart leafData) (fun i _ => apart (leaves i)) climbs
  exact ⟨length, getRoot_of_length free length reached⟩

/-- The same for a verified proof, whose index is inside the tree. -/
theorem verify_treeRoot [DecidableEq D] (free : CollisionFree D) (apart : LeavesApart D V)
    (verified : proof.verify leafData index (treeRoot D height leaves) = .ok ()) :
    index.toNat < 2 ^ height ∧
    (Leafable.hash (leaves index.toNat) : D) = Leafable.hash leafData ∧
    ∀ leaf : V, proof.getRoot leaf index =
      treeRoot D height (update leaves index.toNat leaf) := by
  obtain ⟨inside, reached⟩ := verify_ok_iff.mp verified
  obtain ⟨length, leaf, climbs⟩ := getRoot_eq_treeRoot free apart reached
  rw [length] at inside
  have below := MerkleTree.indexInDomain_lt inside
  rw [Nat.mod_eq_of_lt below] at leaf climbs
  exact ⟨below, leaf, climbs⟩

end MerkleProof

/-! ## Trees that keep their leaves -/

structure IncrementalMerkleTree (D V : Type) where
  merkleTree : MerkleTree D
  leaves : List V

namespace IncrementalMerkleTree

def new (V : Type) [Leafable D V] (height : Nat) : IncrementalMerkleTree D V :=
  { merkleTree := .new V height, leaves := [] }

def height (t : IncrementalMerkleTree D V) : Nat := t.merkleTree.height

def getRoot (t : IncrementalMerkleTree D V) : D := t.merkleTree.getRoot

def getLeaf (t : IncrementalMerkleTree D V) (index : BitVec 64) : V :=
  t.leaves.getD index.toNat (Leafable.emptyLeaf D)

def update (t : IncrementalMerkleTree D V) (index : BitVec 64) (leaf : V) :
    Option (IncrementalMerkleTree D V) := do
  let merkleTree ← t.merkleTree.updateLeaf index (Leafable.hash leaf)
  if index.toNat < t.leaves.length then
    some { merkleTree, leaves := t.leaves.set index.toNat leaf }
  else none

/-- A shift of a 64-bit word takes its amount modulo 64. -/
def push (t : IncrementalMerkleTree D V) (leaf : V) : Option (IncrementalMerkleTree D V) := do
  let index := t.leaves.length
  if index < 2 ^ (t.height % 64) then
    let merkleTree ← t.merkleTree.updateLeaf (BitVec.ofNat 64 index) (Leafable.hash leaf)
    some { merkleTree, leaves := t.leaves ++ [leaf] }
  else none

def prove (t : IncrementalMerkleTree D V) (index : BitVec 64) : Option (MerkleProof D) :=
  t.merkleTree.prove index

/-- The leaf at every position, empty ones included. -/
def leafAt (t : IncrementalMerkleTree D V) (i : Nat) : V := t.leaves.getD i (Leafable.emptyLeaf D)

/-- The nodes are those of the leaves. -/
def Faithful (t : IncrementalMerkleTree D V) : Prop :=
  t.merkleTree.Commits fun i => Leafable.hash (t.leafAt i)

variable {t : IncrementalMerkleTree D V}

theorem Faithful.getRoot (faithful : t.Faithful) : t.getRoot = treeRoot D t.height t.leafAt :=
  MerkleTree.Commits.getRoot faithful

theorem new_faithful (height : Nat) : (new V height : IncrementalMerkleTree D V).Faithful := by
  simpa [Faithful, leafAt, new] using MerkleTree.new_commits V height

omit [Hashing D B] [Leafable D V] in
theorem getD_append_singleton (leaves : List V) (leaf empty : V) (i : Nat) :
    (leaves ++ [leaf]).getD i empty =
      Function.update (fun i => leaves.getD i empty) leaves.length leaf i := by
  rcases lt_trichotomy i leaves.length with inside | rfl | outside
  · rw [getD_append _ _ _ _ inside, update_of_ne (ne_of_lt inside)]
  · rw [getD_append_right _ _ _ _ (le_refl _), update_self, Nat.sub_self,
      getD_cons_zero]
  · have past : (leaves ++ [leaf]).length ≤ i := by
      rw [length_append]
      exact outside
    rw [getD_eq_default _ _ past, update_of_ne (ne_of_gt outside),
      getD_eq_default _ _ (le_of_lt outside)]

omit [Hashing D B] [Leafable D V] in
theorem getD_set (leaves : List V) (leaf empty : V) {i : Nat} (inside : i < leaves.length) :
    (fun j => (leaves.set i leaf).getD j empty) =
      Function.update (fun j => leaves.getD j empty) i leaf := by
  funext j
  by_cases here : j = i
  · subst here
    rw [update_self, getD_eq_getElem?_getD, getElem?_set_self inside, getD_some]
  · rw [update_of_ne here, getD_eq_getElem?_getD, getD_eq_getElem?_getD,
      getElem?_set_ne (Ne.symm here)]

theorem Faithful.update {t' : IncrementalMerkleTree D V} {index : BitVec 64} {leaf : V}
    (faithful : t.Faithful) (updated : t.update index leaf = some t') :
    index.toNat < t.leaves.length ∧ t'.height = t.height ∧
    t'.leaves = t.leaves.set index.toNat leaf ∧ t'.Faithful := by
  simp [IncrementalMerkleTree.update, bind_eq_some_iff] at updated
  obtain ⟨merkleTree, changed, inside, rfl⟩ := updated
  obtain ⟨same, commits⟩ := MerkleTree.Commits.updateLeaf faithful changed
  refine ⟨inside, same, rfl, ?_⟩
  rw [← hash_update] at commits
  have leaves : leafAt (D := D) { merkleTree, leaves := t.leaves.set index.toNat leaf } =
      Function.update t.leafAt index.toNat leaf := getD_set _ _ _ inside
  unfold Faithful
  rw [leaves]
  exact commits

theorem Faithful.push {t' : IncrementalMerkleTree D V} {leaf : V} (faithful : t.Faithful)
    (pushed : t.push leaf = some t') :
    t'.height = t.height ∧ t'.leaves = t.leaves ++ [leaf] ∧ t'.Faithful := by
  simp [IncrementalMerkleTree.push, bind_eq_some_iff] at pushed
  obtain ⟨room, merkleTree, updated, rfl⟩ := pushed
  obtain ⟨same, commits⟩ := MerkleTree.Commits.updateLeaf faithful updated
  refine ⟨same, rfl, ?_⟩
  have small : t.leaves.length < 2 ^ 64 :=
    lt_trans room (Nat.pow_lt_pow_right Nat.one_lt_two (Nat.mod_lt _ (by decide)))
  rw [BitVec.toNat_ofNat, Nat.mod_eq_of_lt small, ← hash_update] at commits
  have leaves : leafAt (D := D) { merkleTree, leaves := t.leaves ++ [leaf] } =
      Function.update t.leafAt t.leaves.length leaf :=
    funext fun i => getD_append_singleton _ _ _ i
  unfold Faithful
  rw [leaves]
  exact commits

end IncrementalMerkleTree

end

end Intmax.Trees
