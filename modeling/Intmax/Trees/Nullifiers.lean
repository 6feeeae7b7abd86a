import Intmax.Lib.SortedLinks
import Intmax.Trees.Indexed

/-! # No key is inserted twice

Behind every root that accepted insertion proofs lead to there is a tree whose occupied leaves
are one list, sorted by key, from the sentinel on.  A key that a proof can insert lies in a gap
of this list, so it was not in the tree.
-/

namespace Intmax.Trees

open Checked Hashing SortedLinks Function List Leafable Item

section
variable {D B K : Type} [Hashing D B] [LinearOrder K] [BoundedOrder K] [TreeKey D K]

/-! ## What a leaf hash fixes -/

namespace IndexedMerkleLeaf

omit [LinearOrder K] [BoundedOrder K] in
/-- A leaf as its hash reads it: the link is a field element. -/
def cell (leaf : IndexedMerkleLeaf K) : Cell K Nat :=
  { key := leaf.key, nextKey := leaf.nextKey, link := leaf.nextIndex.toNat % goldilocksOrder }

omit [LinearOrder K] [BoundedOrder K] in
theorem preimage_kind (leaf leaf' : IndexedMerkleLeaf K) :
    Forall₂ (fun a b => sameKind a b = true) (leaf.preimage : List (Item D B))
      leaf'.preimage := by
  refine rel_append (rel_append (rel_append ?_ ?_) ?_) ?_
  · exact .cons rfl .nil
  · exact TreeKey.items_kind _ _
  · exact TreeKey.items_kind _ _
  · exact .cons rfl .nil

end IndexedMerkleLeaf

theorem cell_eq_of_hash_eq (free : CollisionFree D) {leaf leaf' : IndexedMerkleLeaf K}
    (same : (hash leaf : D) = hash leaf') : leaf.cell = leaf'.cell := by
  have equal := free.inputs _ _ (leaf.preimage_kind leaf') same
  have length (a b : K) : (TreeKey.items a : List (Item D B)).length = (TreeKey.items b).length :=
      (TreeKey.items_kind a b).length_eq
  simp only [IndexedMerkleLeaf.preimage] at equal
  obtain ⟨front, -⟩ := append_inj' equal rfl
  obtain ⟨front, nextKey⟩ := append_inj' front (length _ _)
  obtain ⟨link, key⟩ := append_inj front rfl
  simp [field] at link
  simp only [IndexedMerkleLeaf.cell, link, TreeKey.items_injective key,
    TreeKey.items_injective nextKey]

theorem leavesApart (free : CollisionFree D) : LeavesApart D (IndexedMerkleLeaf K) := by
  intro leaf a b
  apply free.apart
  simp [IndexedMerkleLeaf.preimage, TreeKey.items_width, field, width]

/-! ## The list behind a root -/

/-- The leaves at the positions of `order` are the list, and every other leaf is empty. -/
structure SortedTree (D : Type) {B K : Type} [Hashing D B] [LinearOrder K] [BoundedOrder K]
    [TreeKey D K] (height : Nat) (leaves : Nat → IndexedMerkleLeaf K) (order : List Nat) :
    Prop where
  linked : Linked (· % goldilocksOrder) 0 (fun i => (leaves i).cell) order
  starts : order.head? = some 0
  sentinel : (leaves 0).key = ⊥
  inside : ∀ i ∈ order, i < 2 ^ height
  occupied : ∀ i < 2 ^ height, i ∈ order ↔
    (Leafable.hash (leaves i) : D) ≠ Leafable.hash (Leafable.emptyLeaf D : IndexedMerkleLeaf K)

/-- The keys of the list, in its order. -/
def keysAlong (leaves : Nat → IndexedMerkleLeaf K) (order : List Nat) : List K :=
  order.map fun i => (leaves i).key

namespace SortedTree

variable {height : Nat} {leaves leaves' : Nat → IndexedMerkleLeaf K} {order : List Nat}

theorem nodup_keys (sorted : SortedTree D height leaves order) : (keysAlong leaves order).Nodup :=
  sorted.linked.nodup_keys

/-- The link of a leaf of the list is never that of the empty leaf. -/
theorem emptyLink_ne_zero :
    (emptyLeaf D : IndexedMerkleLeaf K).nextIndex.toNat % goldilocksOrder ≠ 0 := by
  show (BitVec.allOnes 64).toNat % goldilocksOrder ≠ 0
  decide

end SortedTree

/-- What an accepted insertion opens and writes. -/
structure Insertion (D : Type) {B K : Type} [Hashing D B] [LinearOrder K] [BoundedOrder K]
    [TreeKey D K] (height : Nat) (leaves : Nat → IndexedMerkleLeaf K) (key : K)
    (proof : IndexedInsertionProof D K) : Prop where
  lower : proof.prevLowLeaf.key < key
  upper : key < proof.prevLowLeaf.nextKey ∨ proof.prevLowLeaf.nextKey = ⊥
  low_inside : proof.lowLeafIndex.toNat < 2 ^ height
  low_cell : (leaves proof.lowLeafIndex.toNat).cell = proof.prevLowLeaf.cell
  low_occupied : (Leafable.hash (leaves proof.lowLeafIndex.toNat) : D) ≠
    Leafable.hash (Leafable.emptyLeaf D : IndexedMerkleLeaf K)
  new_inside : proof.index.toNat < 2 ^ height
  new_empty : (Leafable.hash (leaves proof.index.toNat) : D) =
    Leafable.hash (Leafable.emptyLeaf D : IndexedMerkleLeaf K)

/-- The leaves after an insertion. -/
def insertedLeaves (leaves : Nat → IndexedMerkleLeaf K) (key : K) (value : BitVec 64)
    (proof : IndexedInsertionProof D K) : Nat → IndexedMerkleLeaf K :=
  Function.update (Function.update leaves proof.lowLeafIndex.toNat (proof.newLowLeaf key))
    proof.index.toNat (proof.newLeaf key value)

section
variable {height : Nat} {leaves : Nat → IndexedMerkleLeaf K} {order : List Nat}
  {key : K} {value : BitVec 64} {proof : IndexedInsertionProof D K} {root : D}

/-- A leaf below another key does not hash like the empty leaf. -/
theorem hash_ne_empty (free : CollisionFree D) {leaf : IndexedMerkleLeaf K}
    (lower : leaf.key < key) :
    (hash leaf : D) ≠ hash (emptyLeaf D : IndexedMerkleLeaf K) := by
  intro empty
  have same : leaf.key = ⊤ := congrArg Cell.key (cell_eq_of_hash_eq free empty)
  exact not_top_lt (same ▸ lower)

theorem Insertion.distinct (insertion : Insertion D height leaves key proof) :
    proof.lowLeafIndex.toNat ≠ proof.index.toNat := by
  intro same
  exact insertion.low_occupied (same ▸ insertion.new_empty)

/-- The leaves change as an insertion into the list does. -/
theorem Insertion.inserts (insertion : Insertion D height leaves key proof) (value : BitVec 64) :
    Inserts (· % goldilocksOrder) (fun i => (leaves i).cell)
      (fun i => (insertedLeaves leaves key value proof i).cell) proof.lowLeafIndex.toNat
      proof.index.toNat key := by
  constructor
  · rw [insertedLeaves, update_of_ne insertion.distinct, update_self,
      insertion.low_cell]
    rfl
  · rw [insertedLeaves, update_self, insertion.low_cell]
    rfl
  · intro i low new
    rw [insertedLeaves, update_of_ne new, update_of_ne low]

/-- The new leaf does not pass as empty, whatever its key: at the end of the list its link is
    zero, which is not the link of an empty leaf. -/
theorem SortedTree.newLeaf_occupied (free : CollisionFree D)
    (sorted : SortedTree D height leaves order) (insertion : Insertion D height leaves key proof) :
    (hash (proof.newLeaf key value) : D) ≠
      hash (emptyLeaf D : IndexedMerkleLeaf K) := by
  intro empty
  have cell := cell_eq_of_hash_eq free empty
  have member := (sorted.occupied _ insertion.low_inside).mpr insertion.low_occupied
  have bottom : (leaves proof.lowLeafIndex.toNat).cell.nextKey = ⊥ := by
    rw [insertion.low_cell]
    exact congrArg Cell.nextKey cell
  have link := sorted.linked.link_eq_stop member bottom
  rw [insertion.low_cell] at link
  exact SortedTree.emptyLink_ne_zero (D := D) (K := K) ((congrArg Cell.link cell).symm.trans link)

/-- An insertion keeps the list and adds its key. -/
theorem SortedTree.insert (free : CollisionFree D) (sorted : SortedTree D height leaves order)
    (insertion : Insertion D height leaves key proof) (value : BitVec 64) :
    ∃ order', SortedTree D height (insertedLeaves leaves key value proof) order' ∧
      (keysAlong (insertedLeaves leaves key value proof) order').Perm
        (key :: keysAlong leaves order) := by
  have inserts := insertion.inserts value
  have low_mem := (sorted.occupied _ insertion.low_inside).mpr insertion.low_occupied
  have fresh : proof.index.toNat ∉ order := fun member =>
    (sorted.occupied _ insertion.new_inside).mp member insertion.new_empty
  have zero_mem : 0 ∈ order := mem_of_mem_head? sorted.starts
  set leaves' := insertedLeaves leaves key value proof
  -- every leaf of the old list keeps its key
  have keeps : ∀ i ∈ order, (leaves' i).key = (leaves i).key := by
    intro i member
    have new : i ≠ proof.index.toNat := fun same => fresh (same ▸ member)
    by_cases low : i = proof.lowLeafIndex.toNat
    · subst low
      exact congrArg Cell.key inserts.low_eq
    · exact congrArg Cell.key (inserts.others i low new)
  obtain ⟨before, after, rfl⟩ := append_of_mem low_mem
  refine ⟨before ++ proof.lowLeafIndex.toNat :: proof.index.toNat :: after, ?_, ?_⟩
  · constructor
    · refine sorted.linked.insert fresh ?_ ?_ inserts
      · rw [insertion.low_cell]
        exact insertion.lower
      · rw [insertion.low_cell]
        exact insertion.upper
    · have starts := sorted.starts
      cases before with
      | nil => exact starts
      | cons first rest => exact starts
    · rw [keeps 0 zero_mem]
      exact sorted.sentinel
    · intro i member
      by_cases new : i = proof.index.toNat
      · exact new ▸ insertion.new_inside
      · apply sorted.inside
        simpa [new] using member
    · intro i inside
      by_cases new : i = proof.index.toNat
      · subst new
        simp only [leaves', insertedLeaves, update_self]
        exact iff_of_true (by simp) (sorted.newLeaf_occupied free insertion)
      · by_cases low : i = proof.lowLeafIndex.toNat
        · subst low
          simp only [leaves', insertedLeaves, update_of_ne insertion.distinct, update_self]
          have lower : (proof.newLowLeaf key).key < key := insertion.lower
          exact iff_of_true (by simp) (hash_ne_empty free lower)
        · simp only [leaves', insertedLeaves, update_of_ne new, update_of_ne low]
          rw [← sorted.occupied i inside]
          simp [new]
  · have new_key : (leaves' proof.index.toNat).key = key := congrArg Cell.key inserts.new_eq
    have moved : (before ++ proof.lowLeafIndex.toNat :: proof.index.toNat :: after).Perm
        (proof.index.toNat :: (before ++ proof.lowLeafIndex.toNat :: after)) := by
      rw [append_cons, append_cons before _ after]
      exact perm_middle
    refine (moved.map fun i => (leaves' i).key).trans ?_
    rw [map_cons, new_key, map_congr_left keeps]
    exact .refl _

/-- The root of a tree whose list holds these keys after the sentinel's. -/
def KeysBehind (D : Type) {B K : Type} [Hashing D B] [LinearOrder K] [BoundedOrder K]
    [TreeKey D K] (height : Nat) (root : D) (keys : List K) : Prop :=
  ∃ leaves order, root = treeRoot D height leaves ∧ SortedTree D height leaves order ∧
    (keysAlong leaves order).Perm (⊥ :: keys)

/-- The new tree is the sentinel alone. -/
theorem KeysBehind.new (free : CollisionFree D) {t : IndexedMerkleTree D K}
    (start : IndexedMerkleTree.new height = some t) :
    KeysBehind D height t.getRoot ([] : List K) := by
  have empty := IncrementalMerkleTree.new_faithful (D := D) (V := IndexedMerkleLeaf K) height
  obtain ⟨same, leaves, faithful⟩ := empty.push start
  have rest (i : Nat) (later : i ≠ 0) : t.leafAt i = emptyLeaf D := by
    obtain ⟨k, rfl⟩ := Nat.exists_eq_succ_of_ne_zero later
    simp [IncrementalMerkleTree.leafAt, leaves, IncrementalMerkleTree.new]
  have first : t.leafAt 0 = .sentinel := by
    simp [IncrementalMerkleTree.leafAt, leaves, IncrementalMerkleTree.new]
  refine ⟨t.leafAt, [0], ?_, ?_, ?_⟩
  · rw [faithful.getRoot, same]
    rfl
  · constructor
    · refine ⟨.singleton _, fun i last => ?_⟩
      obtain rfl : 0 = i := by simpa using last
      simp [first, IndexedMerkleLeaf.cell, IndexedMerkleLeaf.sentinel]
    · rfl
    · rw [first]
      rfl
    · intro i member
      rw [mem_singleton.mp member]
      exact Nat.two_pow_pos height
    · intro i _
      by_cases later : i = 0
      · subst later
        refine iff_of_true (by simp) fun hash => ?_
        have link := congrArg Cell.link (cell_eq_of_hash_eq free (first ▸ hash))
        exact SortedTree.emptyLink_ne_zero (D := D) (K := K) link.symm
      · exact iff_of_false (by simpa using later) fun apart => apart (by rw [rest i later])
  · simp [keysAlong, first, IndexedMerkleLeaf.sentinel]

/-- The root fixes the list. -/
theorem SortedTree.of_root_eq (free : CollisionFree D) (sorted : SortedTree D height leaves order)
    {leaves' : Nat → IndexedMerkleLeaf K}
    (same : treeRoot D height leaves = treeRoot D height leaves') :
    SortedTree D height leaves' order ∧ keysAlong leaves' order = keysAlong leaves order := by
  have hashes := Merkle.root_injective free.nodes same
  have cells : ∀ i ∈ order, (leaves' i).cell = (leaves i).cell := fun i member =>
    (cell_eq_of_hash_eq free (hashes i (sorted.inside i member))).symm
  have zero_mem : 0 ∈ order := mem_of_mem_head? sorted.starts
  refine ⟨?_, map_congr_left fun i member => congrArg Cell.key (cells i member)⟩
  exact
    { linked := sorted.linked.congr cells
      starts := sorted.starts
      sentinel := (congrArg Cell.key (cells 0 zero_mem)).trans sorted.sentinel
      inside := sorted.inside
      occupied := fun i inside => by rw [sorted.occupied i inside, hashes i inside] }

variable [DecidableEq D]

theorem getNewRoot_ok (free : CollisionFree D)
    (accepted : proof.getNewRoot key value (treeRoot D height leaves) = .ok root) :
    Insertion D height leaves key proof ∧
      root = treeRoot D height (insertedLeaves leaves key value proof) := by
  simp only [IndexedInsertionProof.getNewRoot, bind_ok, revertIf_ok, not_le, not_not,
    mapError_ok, exists_const, pure_ok] at accepted
  obtain ⟨lower, upper, ⟨⟩, low, ⟨⟩, new, rfl⟩ := accepted
  obtain ⟨low_inside, low_leaf, low_climbs⟩ :=
    MerkleProof.verify_treeRoot free (leavesApart free) low
  rw [low_climbs] at new
  obtain ⟨new_inside, new_leaf, new_climbs⟩ :=
    MerkleProof.verify_treeRoot free (leavesApart free) new
  -- the low leaf is no empty leaf, before and after it is updated
  have apart : proof.index.toNat ≠ proof.lowLeafIndex.toNat := by
    intro same
    rw [same, update_self] at new_leaf
    have lower' : (proof.newLowLeaf key).key < key := lower
    exact hash_ne_empty free lower' new_leaf
  rw [update_of_ne apart] at new_leaf
  refine ⟨?_, new_climbs _⟩
  exact
    { lower, upper, low_inside, new_inside
      low_cell := cell_eq_of_hash_eq free low_leaf
      low_occupied := low_leaf ▸ hash_ne_empty free lower
      new_empty := new_leaf }

/-! ## Runs of insertions -/

theorem KeysBehind.step (free : CollisionFree D) {keys : List K} {root root' : D}
    (behind : KeysBehind D height root keys) (accepted :
      proof.getNewRoot key value root = .ok root') :
    KeysBehind D height root' (keys ++ [key]) := by
  obtain ⟨leaves, order, rfl, sorted, same⟩ := behind
  obtain ⟨insertion, rfl⟩ := getNewRoot_ok free accepted
  obtain ⟨order', sorted', added⟩ := sorted.insert free insertion value
  refine ⟨_, order', rfl, sorted', added.trans ?_⟩
  refine (same.cons key).trans ?_
  exact (Perm.swap ⊥ key keys).trans ((perm_append_singleton key keys).symm.cons ⊥)

theorem KeysBehind.run (free : CollisionFree D) {keys : List K} {root root' : D}
    (behind : KeysBehind D height root keys)
    {steps : List (K × BitVec 64 × IndexedInsertionProof D K)}
    (accepted : insertAll steps root = .ok root') :
    KeysBehind D height root' (keys ++ steps.map Prod.fst) := by
  induction steps generalizing root keys with
  | nil =>
    cases accepted
    simpa using behind
  | cons step rest ih =>
    obtain ⟨key, value, proof⟩ := step
    simp [insertAll] at accepted
    obtain ⟨next, first, later⟩ := accepted
    have result := ih (behind.step free first) later
    rwa [append_assoc, singleton_append] at result

theorem insertAll_append {steps later : List (K × BitVec 64 × IndexedInsertionProof D K)}
    {root root' : D} :
    insertAll (steps ++ later) root = .ok root' ↔
      ∃ middle, insertAll steps root = .ok middle ∧ insertAll later middle = .ok root' := by
  induction steps generalizing root with
  | nil => simp [insertAll]
  | cons step rest ih =>
    obtain ⟨key, value, proof⟩ := step
    simp [insertAll, ih]
    constructor
    · rintro ⟨next, first, middle, early, late⟩
      exact ⟨middle, ⟨next, first, early⟩, late⟩
    · rintro ⟨middle, ⟨next, first, early⟩, late⟩
      exact ⟨next, first, middle, early, late⟩

end

end

/-- Whatever insertion proofs are accepted one after the other from the new tree on: no key is
    inserted twice or is zero, and the tree behind each root on the way is one sorted list. -/
theorem nullifiers_inserted_once {D B : Type} [Hashing D B] [DecidableEq D]
    (free : CollisionFree D) (height : Nat) (t : IndexedMerkleTree D U256)
    (start : IndexedMerkleTree.new height = some t)
    (steps : List (U256 × BitVec 64 × IndexedInsertionProof D U256)) (root : D)
    (accepted : insertAll steps t.getRoot = .ok root) :
    (steps.map Prod.fst).Nodup ∧ 0 ∉ steps.map Prod.fst ∧
    ∀ n, ∃ middle, insertAll (steps.take n) t.getRoot = .ok middle ∧
      (∃ leaves : Nat → IndexedMerkleLeaf U256, middle = treeRoot D height leaves) ∧
      ∀ leaves : Nat → IndexedMerkleLeaf U256, middle = treeRoot D height leaves →
        ∃ order, SortedTree D height leaves order ∧
          (keysAlong leaves order).Perm (0 :: (steps.take n).map Prod.fst) := by
  have initial := KeysBehind.new free start
  have distinct : ((0 : U256) :: steps.map Prod.fst).Nodup := by
    obtain ⟨leaves, order, -, sorted, same⟩ := initial.run free accepted
    exact same.nodup_iff.mp sorted.nodup_keys
  obtain ⟨nonzero, nodup⟩ := List.nodup_cons.mp distinct
  refine ⟨nodup, nonzero, fun n => ?_⟩
  -- the steps up to the root in question are a run of their own
  rw [← List.take_append_drop n steps, insertAll_append] at accepted
  obtain ⟨middle, early, -⟩ := accepted
  obtain ⟨leaves, order, behind, sorted, same⟩ := initial.run free early
  refine ⟨middle, early, ⟨leaves, behind⟩, fun leaves' behind' => ?_⟩
  obtain ⟨sorted', keys⟩ := sorted.of_root_eq free (behind.symm.trans behind')
  exact ⟨order, sorted', keys ▸ same⟩

/-- Insert keys into a tree one after the other and keep the proofs. -/
def proveAll (t : IndexedMerkleTree Free.Digest U256) :
    List U256 → Except (IndexedMerkleTreeError Free.Digest U256)
      (List (U256 × BitVec 64 × IndexedInsertionProof Free.Digest U256))
  | [] => .ok []
  | key :: rest => do
    let (proof, t) ← t.proveAndInsert key 0
    let steps ← proveAll t rest
    pure ((key, 0, proof) :: steps)

def sampleTree : IndexedMerkleTree Free.Digest U256 :=
  (IndexedMerkleTree.new 3).getD (IncrementalMerkleTree.new _ 3)

/-- The largest key is one of those inserted. -/
def sampleInsertions : List (U256 × BitVec 64 × IndexedInsertionProof Free.Digest U256) :=
  match proveAll sampleTree [5, ⊤, 3] with
  | .ok steps => steps
  | .error _ => []

theorem nullifiers_inserted_once_sample :
    sampleInsertions.map Prod.fst = [5, ⊤, 3] ∧
    ∃ root, insertAll sampleInsertions sampleTree.getRoot = .ok root ∧
      (sampleInsertions.map Prod.fst).Nodup := by
  have start : IndexedMerkleTree.new 3 = some sampleTree := rfl
  have accepted : (insertAll sampleInsertions sampleTree.getRoot).isOk = true := by
    decide +kernel
  cases outcome : insertAll sampleInsertions sampleTree.getRoot with
  | error e =>
    rw [outcome] at accepted
    cases accepted
  | ok root =>
    refine ⟨by decide +kernel, root, rfl, ?_⟩
    exact (nullifiers_inserted_once Free.collisionFree 3 sampleTree start _ root outcome).1

end Intmax.Trees
