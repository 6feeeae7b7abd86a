import Intmax.Lib.Path
import Intmax.Channel.Checks

/-! # The settled-transaction accumulator

A transfer that comes in is pushed as a tagged leaf, and its application replaces this leaf by the
transaction hash.  The application shows one list of siblings for both roots, so it changes the
leaf at its index and no other.  Counting tagged leaves along a run bounds how often a transfer is
applied.  A transaction hash that is itself a tagged leaf counts as such once it is applied.
-/

namespace Intmax.Channel

open Checked Hashing Trees Transition Function List IncrementalMerkleTree
open Free (Digest)

/-! ## Counting leaves -/

section
variable {B : Type} [DecidableEq B]

/-- At how many of the first `n` positions the leaf is. -/
def held (n : Nat) (leaves : Nat → B) (leaf : B) : Nat :=
  (List.range n).countP fun i => leaves i = leaf

theorem held_congr {n : Nat} {leaves leaves' : Nat → B} (same : ∀ i < n, leaves i = leaves' i)
    (leaf : B) : held n leaves leaf = held n leaves' leaf := by
  refine countP_congr fun i member => ?_
  rw [same i (mem_range.mp member)]

theorem held_update {n i : Nat} (inside : i < n) (leaves : Nat → B) (new leaf : B) :
    held n (update leaves i new) leaf + (if leaves i = leaf then 1 else 0) =
      held n leaves leaf + (if new = leaf then 1 else 0) := by
  induction n with
  | zero => exact absurd inside (Nat.not_lt_zero i)
  | succ n ih =>
    simp only [held, range_succ, countP_append, countP_singleton, decide_eq_true_eq]
    by_cases last : i = n
    · subst last
      have below : held i (update leaves i new) leaf = held i leaves leaf :=
        held_congr (fun j lower => update_of_ne (Nat.ne_of_lt lower) _ _) leaf
      simp only [held] at below
      rw [update_self, below]
      omega
    · have earlier := ih (by omega)
      simp only [held] at earlier
      rw [update_of_ne (Ne.symm last)]
      omega

end

section
variable {D B : Type} [Hashing D B] [DecidableEq B]

/-! ## One application -/

/-- The root of an accumulator over `leaves`. -/
def accumulatorRoot (D : Type) {B : Type} [Hashing D B] (leaves : Nat → B) : B :=
  ofDigest (treeRoot D settledTxAccumulatorHeight leaves)

omit [DecidableEq B] in
theorem leaf_hash_injective (free : CollisionFree D) :
    Injective (Leafable.hash : B → D) := by
  intro b b' same
  have equal := free.inputs [.bytes b] [.bytes b'] (.cons rfl .nil) same
  simpa using equal

variable {leaves : Nat → B}

omit [DecidableEq B] in
/-- A root has one tree behind it. -/
theorem accumulatorRoot_injective (free : CollisionFree D) {leaves' : Nat → B}
    (same : accumulatorRoot D leaves = accumulatorRoot D leaves') :
    ∀ i < 2 ^ settledTxAccumulatorHeight, leaves i = leaves' i := fun i below =>
  leaf_hash_injective free
    (Merkle.root_injective free.nodes (ofDigest_injective same) i below)

/-- An accepted application replaces the tagged leaf at its index. -/
theorem requireIncomingApplication_leaf (free : CollisionFree D) {next txHash : B}
    {index : BitVec 64} {proof : MerkleProof D}
    (accepted : requireIncomingApplication (accumulatorRoot D leaves) next txHash index proof =
      .ok ()) :
    index.toNat < 2 ^ settledTxAccumulatorHeight ∧
    leaves index.toNat = unappliedIncomingLeaf D txHash ∧
    next = accumulatorRoot D (update leaves index.toNat txHash) := by
  simp [requireIncomingApplication] at accepted
  obtain ⟨below, length, before, after⟩ := accepted
  have reached := ofDigest_injective before
  rw [MerkleProof.getRoot_eq] at reached
  -- the siblings are as many as the tree is high, so the climb starts at the tree's own leaf
  obtain ⟨opened, climbs⟩ := Merkle.climb_eq_root free.nodes length reached
  rw [Nat.mod_eq_of_lt below] at opened climbs
  refine ⟨below, leaf_hash_injective free opened, ?_⟩
  rw [← after, accumulatorRoot, MerkleProof.getRoot_eq, climbs, treeRoot_update]

/-! ## Runs -/

inductive AccumulatorEvent (B : Type) where
  | push (leaf : B)
  | application (txHash : B)
deriving DecidableEq

/-- An accumulator that a member can hold. -/
inductive Accumulator : IncrementalMerkleTree D B → Prop where
  | new : Accumulator (.new B settledTxAccumulatorHeight)
  | push {t t' : IncrementalMerkleTree D B} {leaf : B} (kept : Accumulator t)
    (pushed : t.push leaf = some t') : Accumulator t'
  | update {t t' : IncrementalMerkleTree D B} {index : BitVec 64} {leaf : B} (kept : Accumulator t)
    (updated : t.update index leaf = some t') : Accumulator t'

/-- A root that the checks accept after another one. -/
inductive AccumulatorStep (D : Type) {B : Type} [Hashing D B] [DecidableEq B] :
    B → AccumulatorEvent B → B → Prop where
  | push {t : IncrementalMerkleTree D B} {leaf next : B} (kept : Accumulator t)
    (accepted : requireAccumulatorPush t leaf next = .ok ()) :
    AccumulatorStep D (ofDigest t.getRoot) (.push leaf) next
  | application {root next txHash : B} {index : BitVec 64} {proof : MerkleProof D}
    (accepted : requireIncomingApplication root next txHash index proof = .ok ()) :
    AccumulatorStep D root (.application txHash) next

omit [DecidableEq B] in
theorem Accumulator.faithful {t : IncrementalMerkleTree D B} (kept : Accumulator t) :
    t.Faithful ∧ t.height = settledTxAccumulatorHeight := by
  induction kept with
  | new => exact ⟨new_faithful _, rfl⟩
  | push _ pushed ih =>
    obtain ⟨height, -, faithful⟩ := ih.1.push pushed
    exact ⟨faithful, height.trans ih.2⟩
  | update _ updated ih =>
    obtain ⟨-, height, -, faithful⟩ := ih.1.update updated
    exact ⟨faithful, height.trans ih.2⟩

namespace AccumulatorEvent

/-- What the event writes. -/
def written : AccumulatorEvent B → B
  | push leaf => leaf
  | application txHash => txHash

/-- What stood there before. -/
def replaced (D : Type) {B : Type} [Hashing D B] : AccumulatorEvent B → B
  | push _ => zeroBytes D
  | application txHash => unappliedIncomingLeaf D txHash

end AccumulatorEvent

/-- A step writes one leaf: an empty one when it pushes, the tagged one when it applies. -/
theorem AccumulatorStep.writes (free : CollisionFree D) {event : AccumulatorEvent B} {next : B}
    (step : AccumulatorStep D (accumulatorRoot D leaves) event next) :
    ∃ i < 2 ^ settledTxAccumulatorHeight, leaves i = event.replaced D ∧
      next = accumulatorRoot D (update leaves i event.written) := by
  generalize same : accumulatorRoot D leaves = root at step
  cases step with
  | @push t leaf _ kept accepted =>
    obtain ⟨faithful, height⟩ := kept.faithful
    rw [faithful.getRoot, height] at same
    have behind : ∀ i < 2 ^ settledTxAccumulatorHeight, leaves i = t.leafAt i :=
      accumulatorRoot_injective free same
    simp [requireAccumulatorPush] at accepted
    obtain ⟨advanced, pushed, rfl⟩ := accepted
    obtain ⟨height', grown, faithful'⟩ := faithful.push pushed
    have room : t.leaves.length < 2 ^ settledTxAccumulatorHeight := by
      simp only [IncrementalMerkleTree.push, Option.bind_eq_bind,
        Option.ite_none_right_eq_some, height] at pushed
      exact pushed.1
    refine ⟨t.leaves.length, room, ?_, ?_⟩
    · rw [behind _ room]
      exact getD_eq_default _ _ (le_refl _)
    · have after : advanced.leafAt = update t.leafAt t.leaves.length leaf := by
        unfold leafAt
        rw [grown]
        exact funext fun i => getD_append_singleton _ _ _ i
      rw [faithful'.getRoot, height', height, after, accumulatorRoot]
      refine congrArg ofDigest (Merkle.root_congr fun i below => congrArg Leafable.hash ?_)
      by_cases here : i = t.leaves.length
      · rw [here, update_self, update_self]
        rfl
      · rw [update_of_ne here, update_of_ne here, behind i below]
  | application accepted =>
    subst same
    obtain ⟨below, opened, result⟩ := requireIncomingApplication_leaf free accepted
    exact ⟨_, below, opened, result⟩

/-- A run from the tree over `leaves` reaches the tree over some leaves, and every tagged leaf of it
    was there at the start, was pushed or was applied as a transaction hash, and was not applied. -/
theorem accumulator_run (free : CollisionFree D)
    (tags : Injective (unappliedIncomingLeaf D : B → B))
    (proper : ∀ txHash : B, unappliedIncomingLeaf D txHash ≠ zeroBytes D)
    {events : List (AccumulatorEvent B)} {root : B}
    (run : Path (AccumulatorStep D) (accumulatorRoot D leaves) events root) :
    ∃ leaves', root = accumulatorRoot D leaves' ∧ ∀ txHash,
      events.count (.application txHash) +
          held (2 ^ settledTxAccumulatorHeight) leaves' (unappliedIncomingLeaf D txHash) =
        held (2 ^ settledTxAccumulatorHeight) leaves (unappliedIncomingLeaf D txHash) +
          events.count (.push (unappliedIncomingLeaf D txHash)) +
          events.count (.application (unappliedIncomingLeaf D txHash)) := by
  induction run with
  | nil => exact ⟨leaves, rfl, fun txHash => by simp⟩
  | @snoc _ _ events event _ last ih =>
    obtain ⟨middle, rfl, counts⟩ := ih
    obtain ⟨i, inside, before, rfl⟩ := last.writes free
    refine ⟨_, rfl, fun txHash => ?_⟩
    have moved := held_update inside middle event.written (unappliedIncomingLeaf D txHash)
    have total := counts txHash
    rw [before] at moved
    simp only [count_append, count_singleton, beq_iff_eq]
    cases event with
    | push leaf =>
      have empty : ¬ zeroBytes D = unappliedIncomingLeaf D txHash := (proper txHash).symm
      simp only [AccumulatorEvent.replaced, AccumulatorEvent.written, empty, if_false,
        AccumulatorEvent.push.injEq, reduceCtorEq] at moved ⊢
      by_cases tagged : leaf = unappliedIncomingLeaf D txHash
      · simp only [tagged, if_true] at moved ⊢
        omega
      · simp only [tagged, if_false] at moved ⊢
        omega
    | application applied =>
      simp [AccumulatorEvent.replaced, AccumulatorEvent.written, tags.eq_iff, reduceCtorEq]
        at moved ⊢
      by_cases tagged : applied = unappliedIncomingLeaf D txHash
      · simp only [tagged, if_true] at moved ⊢
        omega
      · simp only [tagged, if_false] at moved ⊢
        omega

/-- A first leaf can be pushed. -/
theorem AccumulatorStep.first_push (leaf : B) :
    AccumulatorStep D (accumulatorRoot D fun _ => zeroBytes D) (.push leaf)
      (accumulatorRoot D (update (fun _ => zeroBytes D) 0 leaf)) := by
  have faithful : (new B settledTxAccumulatorHeight :
      IncrementalMerkleTree D B).Faithful := new_faithful _
  obtain ⟨t, pushed⟩ : ∃ t, (new B settledTxAccumulatorHeight :
      IncrementalMerkleTree D B).push leaf = some t := ⟨_, rfl⟩
  obtain ⟨height, grown, faithful'⟩ := faithful.push pushed
  have root : t.getRoot = treeRoot D settledTxAccumulatorHeight
      (update (fun _ => zeroBytes D) 0 leaf) := by
    rw [faithful'.getRoot, height]
    congr 1
    unfold leafAt
    rw [grown]
    exact funext fun i => getD_append_singleton [] _ _ i
  have accepted : requireAccumulatorPush (D := D) (.new B settledTxAccumulatorHeight) leaf
      (ofDigest t.getRoot) = .ok () := by
    simp only [requireAccumulatorPush, pushed, bind_ok, getOrRevert_ok, revertIf_ok, not_not]
    exact ⟨t, rfl, rfl⟩
  have empty : accumulatorRoot D (fun _ => zeroBytes D) = ofDigest
      (new B settledTxAccumulatorHeight : IncrementalMerkleTree D B).getRoot :=
    congrArg ofDigest (new_getRoot _).symm
  rw [empty, accumulatorRoot, ← root]
  exact .push .new accepted

/-- A transfer whose tagged leaf is in the tree can be applied. -/
theorem AccumulatorStep.apply_tagged [DecidableEq D] (txHash : B) (index : BitVec 64)
    (below : index.toNat < 2 ^ settledTxAccumulatorHeight)
    (tagged : leaves index.toNat = unappliedIncomingLeaf D txHash) :
    AccumulatorStep D (accumulatorRoot D leaves) (.application txHash)
      (accumulatorRoot D (update leaves index.toNat txHash)) := by
  obtain ⟨proof, -, climbs, length⟩ := exists_proof (D := D) _ leaves below
  have accepted : requireIncomingApplication (accumulatorRoot D leaves)
      (accumulatorRoot D (update leaves index.toNat txHash)) txHash index proof =
      .ok () := by
    simp [requireIncomingApplication]
    refine ⟨below, length, ?_, ?_⟩
    · rw [climbs, ← tagged, update_eq_self]
      rfl
    · rw [climbs]
      rfl
  exact .application accepted

/-- An accepted application of a transfer replaces its tagged leaf and no other.  Along every run
    from an empty accumulator a transfer is applied at most as often as its tagged leaf was pushed
    or was itself applied as a transaction hash. -/
theorem incoming_transfer_applied_at_most_once (free : CollisionFree D)
    (tags : Function.Injective (unappliedIncomingLeaf D : B → B))
    (proper : ∀ txHash : B, unappliedIncomingLeaf D txHash ≠ zeroBytes D) :
    (∀ (leaves : Nat → B) (next txHash : B) (index : BitVec 64) (proof : MerkleProof D),
      requireIncomingApplication (accumulatorRoot D leaves) next txHash index proof = .ok () →
      index.toNat < 2 ^ settledTxAccumulatorHeight ∧
      leaves index.toNat = unappliedIncomingLeaf D txHash ∧
      next = accumulatorRoot D (Function.update leaves index.toNat txHash)) ∧
    (∀ (leaves : Nat → B) (event : AccumulatorEvent B) (next : B),
      AccumulatorStep D (accumulatorRoot D leaves) event next →
      ∃ i < 2 ^ settledTxAccumulatorHeight, leaves i = event.replaced D ∧
        next = accumulatorRoot D (Function.update leaves i event.written)) ∧
    ∀ (events : List (AccumulatorEvent B)) (root : B),
      Path (AccumulatorStep D) (accumulatorRoot D fun _ => zeroBytes D) events root →
      ∀ txHash, events.count (.application txHash) ≤
        events.count (.push (unappliedIncomingLeaf D txHash)) +
          events.count (.application (unappliedIncomingLeaf D txHash)) := by
  refine ⟨?_, ?_, ?_⟩
  · intro leaves next txHash index proof accepted
    exact requireIncomingApplication_leaf free accepted
  · intro leaves event next step
    exact step.writes free
  · intro events root run txHash
    obtain ⟨leaves, -, counts⟩ := accumulator_run free tags proper run
    have none : held (2 ^ settledTxAccumulatorHeight) (fun _ => zeroBytes D)
        (unappliedIncomingLeaf D txHash) = 0 :=
      List.countP_eq_zero.mpr fun i _ => by simpa using (proper txHash).symm
    have total := counts txHash
    omega

/-- A transfer that is pushed and applied. -/
theorem incoming_transfer_applied_at_most_once_run :
    ∃ (events : List (AccumulatorEvent Free.Bytes)) (root : Free.Bytes),
      Path (AccumulatorStep Digest) (accumulatorRoot Digest fun _ => zeroBytes Digest)
        events root ∧
      events.count (.application (.word 7)) = 1 ∧
      events.count (.application (.word 7)) ≤
        events.count (.push (unappliedIncomingLeaf Digest (.word 7))) +
          events.count (.application (unappliedIncomingLeaf Digest (.word 7))) := by
  have run := (Path.single (AccumulatorStep.first_push (D := Digest)
    (unappliedIncomingLeaf Digest (Free.Bytes.word 7)))).snoc
      (AccumulatorStep.apply_tagged _ 0 (by decide) (Function.update_self _ _ _))
  have tags : Function.Injective
      (unappliedIncomingLeaf Digest : Free.Bytes → Free.Bytes) := by
    intro a b same
    simpa using Free.keccakInjective _ _ (.cons rfl (.cons rfl .nil)) same
  refine ⟨_, _, run, by decide, ?_⟩
  exact (incoming_transfer_applied_at_most_once Free.collisionFree tags
    (fun txHash same => by cases same)).2.2 _ _ run _

/-- A transaction hash that is a tagged leaf becomes one when it is applied, and what it tags can
    then be applied without having been pushed. -/
theorem tagged_hash_applied_without_push :
    ∃ (txHash : Free.Bytes) (events : List (AccumulatorEvent Free.Bytes)) (root : Free.Bytes),
      Path (AccumulatorStep Digest) (accumulatorRoot Digest fun _ => zeroBytes Digest)
        events root ∧
      events.count (.push (unappliedIncomingLeaf Digest txHash)) <
        events.count (.application txHash) := by
  let tagged := unappliedIncomingLeaf Digest (Free.Bytes.word 7)
  have run := ((Path.single (AccumulatorStep.first_push (D := Digest)
    (unappliedIncomingLeaf Digest tagged))).snoc
      (AccumulatorStep.apply_tagged tagged 0 (by decide) (Function.update_self _ _ _))).snoc
      (AccumulatorStep.apply_tagged (.word 7) 0 (by decide) (Function.update_self _ _ _))
  exact ⟨.word 7, _, _, run, by decide⟩

end

end Intmax.Channel
