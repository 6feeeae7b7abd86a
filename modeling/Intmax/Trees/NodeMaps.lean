import Intmax.Trees.Roots

/-! # What a tree is made of

The node map of a tree holds a node exactly where a leaf was put below it, and that node is the
root over its block.  So a tree is fixed by its height, its digests and the places that were
written, in whatever order: two trees with the same ones are equal.
-/

namespace Intmax.Trees

open Hashing

section
variable {D B V : Type} [Hashing D B] [Leafable D V]

theorem BitPath.eq_iff {path : BitPath} {length value : Nat} :
    path = ⟨length, value⟩ ↔ path.length = length ∧ path.value = value := by
  cases path
  simp

namespace MerkleTree

/-- Nodes are kept above the written places and nowhere else. -/
def Occupied (t : MerkleTree D) (written : Nat → Prop) : Prop :=
  ∀ path : BitPath, t.nodeHashes path ≠ none ↔ path.length ≤ t.height ∧
    ∃ i, written i ∧ path.value = i / 2 ^ (t.height - path.length)

theorem insert_occupied (t : MerkleTree D) (path other : BitPath) (h : D) :
    (t.insert path h).nodeHashes other ≠ none ↔ other = path ∨
      t.nodeHashes other ≠ none := by
  by_cases here : other = path
  · simp [insert, here]
  · simp [insert, here]

/-- The loop keeps the nodes that there are and adds those above `v`. -/
theorem updateAbove_occupied (n v : Nat) (h : D) (t : MerkleTree D) (path : BitPath) :
    (updateAbove n ⟨n, v⟩ h t).nodeHashes path ≠ none ↔ t.nodeHashes path ≠ none ∨
      (path.length < n ∧ path.value = v / 2 ^ (n - path.length)) := by
  induction n generalizing v h t with
  | zero => simp [updateAbove]
  | succ n ih =>
    simp only [updateAbove, BitPath.pop, Nat.add_one_ne_zero, if_false, Nat.add_sub_cancel]
    rw [ih, insert_occupied]
    rw [BitPath.eq_iff]
    rcases lt_trichotomy path.length n with below | level | above
    · have halves : v / 2 / 2 ^ (n - path.length) = v / 2 ^ (n + 1 - path.length) := by
        rw [Nat.div_div_eq_div_mul, ← pow_succ',
          show n + 1 - path.length = n - path.length + 1 by omega]
      simp [ne_of_lt below, below, Nat.lt_succ_of_lt below, halves]
    · simp [level, or_comm]
    · simp [ne_of_gt above, not_lt_of_gt above, Nat.not_lt_of_ge above]

theorem updateAbove_zeroHashes (n : Nat) (path : BitPath) (h : D) (t : MerkleTree D) :
    (updateAbove n path h t).zeroHashes = t.zeroHashes := by
  induction n generalizing path h t with
  | zero => rfl
  | succ n ih =>
    rw [updateAbove]
    split
    case h_1 => rfl
    case h_2 bit rest _ => exact ih rest _ _

/-- A tree over leaves of a type, with the digests it commits to and the places written. -/
structure Holds (V : Type) [Leafable D V] (t : MerkleTree D) (height : Nat) (digests : Nat → D)
    (written : Nat → Prop) : Prop where
  height_eq : t.height = height
  zeros : t.zeroHashes = (new V height : MerkleTree D).zeroHashes
  commits : t.Commits digests
  occupied : t.Occupied written
  inside : ∀ i, written i → i < 2 ^ height

theorem new_holds (V : Type) [Leafable D V] (height : Nat) : (new V height : MerkleTree D).Holds V
    height (fun _ => Leafable.hash (Leafable.emptyLeaf D : V)) fun _ => False := by
  refine ⟨rfl, rfl, new_commits V height, ?_, ?_⟩
  · intro path
    simp [new]
  · intro i none
    exact none.elim

variable {t t' : MerkleTree D} {height : Nat} {digests : Nat → D} {written : Nat → Prop}

theorem Holds.updateLeaf (holds : t.Holds V height digests written) {index : BitVec 64} {h : D}
    (updated : t.updateLeaf index h = some t') :
    t'.Holds V height (Function.update digests index.toNat h) fun i => written i ∨
      i = index.toNat := by
  obtain ⟨same, commits⟩ := holds.commits.updateLeaf updated
  unfold MerkleTree.updateLeaf at updated
  split at updated
  case isFalse => cases updated
  case isTrue domain =>
    cases updated
    have below := indexInDomain_lt domain
    rw [holds.height_eq] at below
    refine ⟨same.trans holds.height_eq, ?_, commits, ?_, ?_⟩
    · rw [updateAbove_zeroHashes]
      exact holds.zeros
    · intro path
      rw [updateAbove_occupied, insert_occupied, same, holds.occupied]
      rw [BitPath.eq_iff]
      rcases lt_trichotomy path.length t.height with up | level | out
      · simp [ne_of_lt up, up, le_of_lt up, or_and_right, exists_or]
      · simp [level, or_and_right, exists_or, or_comm]
      · simp [ne_of_gt out, not_lt_of_gt out, not_le_of_gt out]
    · intro i put
      rcases put with earlier | rfl
      · exact holds.inside i earlier
      · exact below

theorem updateLeaf_domain {index : BitVec 64} {h : D} (updated : t.updateLeaf index h = some t') :
    indexInDomain index t.height = true ∧ t'.height = t.height := by
  unfold MerkleTree.updateLeaf at updated
  split at updated
  case isFalse => cases updated
  case isTrue domain =>
    cases updated
    exact ⟨domain, updateAbove_height _ _ _ _⟩

theorem Holds.exists_updateLeaf (holds : t.Holds V height digests written) {index : BitVec 64}
    (domain : indexInDomain index height = true) (h : D) : ∃ t', t.updateLeaf index h = some t' :=
  ⟨_, if_pos (holds.height_eq.symm ▸ domain)⟩

theorem Holds.exists_prove (holds : t.Holds V height digests written) {index : BitVec 64}
    (domain : indexInDomain index height = true) : ∃ proof, t.prove index = some proof :=
  ⟨_, if_pos (holds.height_eq.symm ▸ domain)⟩

/-- The node of an occupied path. -/
theorem Holds.node_eq (holds : t.Holds V height digests written) {path : BitPath}
    (kept : t.nodeHashes path ≠ none) :
    t.nodeHashes path = some (Merkle.block twoToOne digests (height - path.length) path.value) := by
  obtain ⟨low, i, put, place⟩ := (holds.occupied path).mp kept
  have bound := holds.inside i put
  rw [holds.height_eq] at low place
  have below : path.value < 2 ^ path.length := by
    rw [place, Nat.div_lt_iff_lt_mul (Nat.two_pow_pos _), ← pow_add,
      show path.length + (height - path.length) = height by omega]
    exact bound
  have block := holds.commits path.length (holds.height_eq.symm ▸ low) path.value below
  rw [getNodeHash, holds.height_eq] at block
  cases found : t.nodeHashes path with
  | none => exact absurd found kept
  | some h =>
    have node : t.nodeHashes ⟨path.length, path.value⟩ = some h := found
    rw [node] at block
    exact congrArg some block

/-- Height, digests and written places leave one tree. -/
theorem Holds.unique (holds : t.Holds V height digests written)
    (holds' : t'.Holds V height digests written) : t = t' := by
  have nodes : t.nodeHashes = t'.nodeHashes := by
    funext path
    have same : t.nodeHashes path ≠ none ↔ t'.nodeHashes path ≠ none := by
      rw [holds.occupied, holds'.occupied, holds.height_eq, holds'.height_eq]
    by_cases kept : t.nodeHashes path ≠ none
    · rw [holds.node_eq kept, holds'.node_eq (same.mp kept)]
    · rw [not_not.mp kept, not_not.mp (same.not.mp kept)]
  obtain ⟨height₁, nodes₁, zeros₁⟩ := t
  obtain ⟨height₂, nodes₂, zeros₂⟩ := t'
  have heights : height₁ = height₂ := holds.height_eq.trans holds'.height_eq.symm
  have zeros : zeros₁ = zeros₂ := holds.zeros.trans holds'.zeros.symm
  have maps : nodes₁ = nodes₂ := nodes
  rw [heights, zeros, maps]

end MerkleTree

end

end Intmax.Trees
