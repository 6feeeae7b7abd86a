import Intmax.Lib.SortedLinks
import Intmax.Trees.Indexed

/-! # Honest insertions

A tree that was made by `new` and insertions holds its occupied leaves as one sorted list from
the sentinel on, and every key that is not in it has one gap.  `prove_and_insert` takes the path
of the low leaf before both writes and the path of the new leaf after them.  The siblings of a
path do not depend on the leaf at its end, so the first path leads to the root between the writes,
and the second one leads back to it.
-/

namespace Intmax.Trees

open Checked Hashing SortedLinks IncrementalMerkleTree Function
open scoped List

section
variable {D B K : Type} [Hashing D B] [LinearOrder K] [BoundedOrder K] [TreeKey D K]

namespace IndexedMerkleTree

/-! ## What an insertion does -/

/-- The two writes of an insertion, with the tree between them. -/
structure Inserted (t between t' : IndexedMerkleTree D K) (low : BitVec 64) (key : K)
    (value : BitVec 64) : Prop where
  found : lowIndex t key = .ok low
  updated : t.update low
    { t.getLeaf low with
      nextIndex := BitVec.ofNat 64 t.leaves.length
      nextKey := key } = some between
  pushed : between.push
    { nextIndex := (t.getLeaf low).nextIndex
      key := key
      nextKey := (t.getLeaf low).nextKey
      value := value } = some t'

variable {t t' between : IndexedMerkleTree D K} {low : BitVec 64} {key : K} {value : BitVec 64}

theorem insert_ok_iff :
    insert t key value = .ok t' ↔ ∃ low between, Inserted t between t' low key value := by
  simp [insert]
  constructor
  · rintro ⟨low, found, between, updated, pushed⟩
    exact ⟨low, between, found, updated, pushed⟩
  · rintro ⟨low, between, found, updated, pushed⟩
    exact ⟨low, found, between, updated, pushed⟩

variable {proof : IndexedInsertionProof D K} {height i : Nat}

theorem proveAndInsert_ok (done : proveAndInsert t key value = .ok (proof, t')) :
    ∃ between, Inserted t between t' proof.lowLeafIndex key value ∧
      proof.index = BitVec.ofNat 64 t.leaves.length ∧
      proof.prevLowLeaf = t.getLeaf proof.lowLeafIndex ∧
      t.prove proof.lowLeafIndex = some proof.lowLeafProof ∧
      t'.prove proof.index = some proof.leafProof := by
  simp only [proveAndInsert, bind_ok, getOrRevert_ok, pure_ok, Prod.mk.injEq] at done
  obtain ⟨low, found, lowProof, lowProved, between, updated, last, pushed, leafProof, leafProved,
    rfl, rfl⟩ := done
  exact ⟨between, ⟨found, updated, pushed⟩, rfl, rfl, lowProved, leafProved⟩

/-! ## The invariant -/

/-- A leaf with the place of the next one. -/
def place (t : IndexedMerkleTree D K) (i : Nat) : Cell K (BitVec 64) :=
  { key := (t.leafAt i).key, nextKey := (t.leafAt i).nextKey, link := (t.leafAt i).nextIndex }

/-- The occupied leaves are one sorted list from the sentinel on. -/
structure Sorted (t : IndexedMerkleTree D K) : Prop where
  faithful : t.Faithful
  small : t.leaves.length < 2 ^ 64
  order : ∃ rest, Linked (BitVec.ofNat 64) 0 (place t) (0 :: rest) ∧
    (0 :: rest).Perm (List.range t.leaves.length)
  sentinel : (t.leafAt 0).key = ⊥

theorem push_room {leaf : IndexedMerkleLeaf K} (pushed : t.push leaf = some t') :
    t.leaves.length + 1 < 2 ^ 64 := by
  simp [push] at pushed
  have top : 2 ^ (t.height % 64) ≤ 2 ^ 63 := Nat.pow_le_pow_right two_pos (by omega)
  omega

theorem new_sorted (made : new height = some t) : Sorted t := by
  obtain ⟨-, leaves, faithful⟩ := (new_faithful height).push made
  have single : t.leaves = [.sentinel] := leaves
  have first : t.leafAt 0 = .sentinel := by rw [leafAt, single]; rfl
  refine ⟨faithful, by simp [single], ⟨[], ⟨.singleton 0, ?_⟩, by rw [single]; rfl⟩, ?_⟩
  · intro i last
    obtain rfl : 0 = i := by simpa using last
    simp only [place, first]
    exact ⟨rfl, rfl⟩
  · rw [first]
    rfl

/-- The keys of the list are those of the leaves. -/
theorem mem_keys {order : List Nat} (perm : order.Perm (List.range t.leaves.length)) (key : K) :
    (key ∈ order.map fun i => (place t i).key) ↔ key ∈ t.leaves.map (·.key) := by
  have leaves : (List.range t.leaves.length).map t.leafAt = t.leaves := by
    refine List.ext_getElem (by simp) fun i inside inside' => ?_
    simp [leafAt, List.getElem?_eq_getElem inside']
  have keys : (List.range t.leaves.length).map (fun i => (place t i).key) =
      t.leaves.map (·.key) := by
    conv_rhs => rw [← leaves, List.map_map]
    rfl
  rw [(perm.map _).mem_iff, keys]

/-! ## The low leaf -/

theorem isLow_iff (leaf : IndexedMerkleLeaf K) : isLow key leaf = true ↔
    leaf.key < key ∧ (key < leaf.nextKey ∨ leaf.nextKey = ⊥) := by
  simp [isLow]

/-- The candidates of `low_index`, by their positions. -/
def candidates (t : IndexedMerkleTree D K) (key : K) : List Nat :=
  (List.range t.leaves.length).filter fun i => isLow key (t.leafAt i)

theorem zipIdx_filter (t : IndexedMerkleTree D K) (key : K) :
    t.leaves.zipIdx.filter (fun x => isLow key x.1) =
      (candidates t key).map fun i => (t.leafAt i, i) := by
  have pairs : t.leaves.zipIdx =
      (List.range t.leaves.length).map fun i => (t.leafAt i, i) := by
    refine List.ext_getElem (by simp) fun i inside inside' => ?_
    have bound : i < t.leaves.length := by simpa using inside
    simp [leafAt, List.getElem?_eq_getElem bound]
  rw [pairs, List.filter_map]
  rfl

theorem mem_candidates : i ∈ candidates t key ↔
    i < t.leaves.length ∧ Gap (place t i) key := by
  simp only [candidates, List.mem_filter, List.mem_range, isLow_iff]
  rfl

theorem lowIndex_of_candidates (only : candidates t key = [i]) :
    lowIndex t key = .ok (BitVec.ofNat 64 i) := by
  simp [lowIndex, zipIdx_filter, only]

theorem lowIndex_of_none (none : candidates t key = []) :
    lowIndex t key = .error (.keyAlreadyExists key) := by
  simp [lowIndex, zipIdx_filter, none]

/-- A new key has one candidate, and a key of the list none. -/
theorem Sorted.candidates_eq (sorted : Sorted t) (key : K) :
    (key ∉ t.leaves.map (·.key) ∧ ∃ i, candidates t key = [i]) ∨
    (key ∈ t.leaves.map (·.key) ∧ candidates t key = []) := by
  obtain ⟨rest, linked, perm⟩ := sorted.order
  have inside (i : Nat) : i ∈ 0 :: rest ↔ i < t.leaves.length := by
    rw [perm.mem_iff, List.mem_range]
  by_cases present : key ∈ t.leaves.map (·.key)
  · refine Or.inr ⟨present, List.eq_nil_iff_forall_not_mem.mpr fun i member => ?_⟩
    obtain ⟨bound, gap⟩ := mem_candidates.mp member
    exact linked.fresh_of_gap ((inside i).mpr bound) gap ((mem_keys perm key).mpr present)
  · refine Or.inl ⟨present, ?_⟩
    have absent := (mem_keys perm key).not.mpr present
    -- a new key is not that of the sentinel, so it is above it
    have above : (place t 0).key < key := by
      have first : (place t 0).key = ⊥ := sorted.sentinel
      rw [first]
      refine bot_lt_iff_ne_bot.mpr ?_
      rintro rfl
      exact absent (by simp [first])
    obtain ⟨i, member, gap⟩ := linked.exists_gap above absent
    have low : i ∈ candidates t key := mem_candidates.mpr ⟨(inside i).mp member, gap⟩
    have distinct : (candidates t key).Nodup := List.nodup_range.filter _
    refine ⟨i, List.perm_singleton.mp ?_⟩
    refine (List.perm_ext_iff_of_nodup distinct (List.nodup_singleton i)).mpr fun j => ?_
    rw [List.mem_singleton]
    constructor
    · intro other
      obtain ⟨bound, gap'⟩ := mem_candidates.mp other
      exact linked.gap_unique ((inside j).mpr bound) member gap' gap
    · rintro rfl
      exact low

/-- The low leaf is an occupied one, and the key is in the gap after it. -/
theorem Sorted.lowIndex_gap (sorted : Sorted t) (found : lowIndex t key = .ok low) :
    low.toNat < t.leaves.length ∧ Gap (place t low.toNat) key := by
  rcases sorted.candidates_eq key with ⟨-, i, only⟩ | ⟨-, none⟩
  · rw [lowIndex_of_candidates only] at found
    obtain ⟨bound, gap⟩ := mem_candidates.mp (only ▸ List.mem_singleton_self i)
    cases found
    rw [BitVec.toNat_ofNat, Nat.mod_eq_of_lt (lt_trans bound sorted.small)]
    exact ⟨bound, gap⟩
  · rw [lowIndex_of_none none] at found
    cases found

/-! ## Every insertion keeps the list -/

/-- The leaves after an insertion. -/
theorem Inserted.leaves (inserted : Inserted t between t' low key value) (sorted : Sorted t) :
    between.Faithful ∧ t'.Faithful ∧ between.height = t.height ∧ t'.height = t.height ∧
    between.leaves.length = t.leaves.length ∧ t'.leaves.length = t.leaves.length + 1 ∧
    between.leafAt = update t.leafAt low.toNat
      { t.getLeaf low with
        nextIndex := BitVec.ofNat 64 t.leaves.length
        nextKey := key } ∧
    t'.leafAt = update between.leafAt t.leaves.length
      { nextIndex := (t.getLeaf low).nextIndex
        key := key
        nextKey := (t.getLeaf low).nextKey
        value := value } := by
  obtain ⟨bound, height, held, faithful⟩ := sorted.faithful.update inserted.updated
  obtain ⟨height', held', faithful'⟩ := faithful.push inserted.pushed
  have same : between.leaves.length = t.leaves.length := by rw [held, List.length_set]
  refine ⟨faithful, faithful', height, height'.trans height, same, ?_, ?_, ?_⟩
  · rw [held', List.length_append, List.length_singleton, same]
  · unfold leafAt
    rw [held]
    exact getD_set _ _ _ bound
  · unfold leafAt
    rw [held', ← same]
    exact funext fun i => getD_append_singleton _ _ _ i

theorem Inserted.sorted (inserted : Inserted t between t' low key value) (sorted : Sorted t) :
    Sorted t' := by
  obtain ⟨-, faithful, -, -, same, longer, first, second⟩ := inserted.leaves sorted
  obtain ⟨bound, gap⟩ := sorted.lowIndex_gap inserted.found
  obtain ⟨rest, linked, perm⟩ := sorted.order
  have apart : low.toNat ≠ t.leaves.length := ne_of_lt bound
  have room := push_room inserted.pushed
  have writes : Inserts (BitVec.ofNat 64) (place t) (place t') low.toNat t.leaves.length key := by
    constructor
    · simp [place, second, first, update_of_ne apart]
      rfl
    · simp only [place, second, update_self]
      rfl
    · intro i other other'
      simp only [place, second, first, update_of_ne other, update_of_ne other']
  have inside (i : Nat) : i ∈ 0 :: rest ↔ i < t.leaves.length := by
    rw [perm.mem_iff, List.mem_range]
  obtain ⟨before, after, split⟩ := List.append_of_mem ((inside _).mpr bound)
  have fresh : t.leaves.length ∉ before ++ low.toNat :: after := by
    rw [← split, inside]
    exact lt_irrefl _
  have linked' := (split ▸ linked).insert fresh gap.1 gap.2 writes
  have perm' : (before ++ low.toNat :: t.leaves.length :: after).Perm
      (List.range t'.leaves.length) := by
    rw [longer, List.range_succ]
    calc before ++ low.toNat :: t.leaves.length :: after
        = (before ++ [low.toNat]) ++ t.leaves.length :: after := by simp
      _ ~ t.leaves.length :: ((before ++ [low.toNat]) ++ after) := List.perm_middle
      _ = t.leaves.length :: (0 :: rest) := by simp [split]
      _ ~ (0 :: rest) ++ [t.leaves.length] := (List.perm_append_singleton _ _).symm
      _ ~ List.range t.leaves.length ++ [t.leaves.length] := perm.append_right _
  refine ⟨faithful, by omega, ?_, ?_⟩
  · cases before with
    | nil =>
      obtain ⟨zero, -⟩ := List.cons.inj split
      exact ⟨_, zero ▸ linked', zero ▸ perm'⟩
    | cons head before =>
      obtain ⟨rfl, -⟩ := List.cons.inj split
      exact ⟨_, linked', perm'⟩
  · -- the key of the first leaf is never written
    have occupied : 0 ≠ t.leaves.length := ne_of_lt (Nat.zero_lt_of_lt bound)
    rw [second, update_of_ne occupied, first]
    by_cases here : 0 = low.toNat
    · have leaf : t.getLeaf low = t.leafAt 0 := by rw [here]; rfl
      rw [here, update_self, leaf]
      exact sorted.sentinel
    · rw [update_of_ne here]
      exact sorted.sentinel

/-- A tree made by `new` and then by insertions, proved or not. -/
inductive Reached (height : Nat) : IndexedMerkleTree D K → Prop where
  | new {t : IndexedMerkleTree D K} (made : new height = some t) : Reached height t
  | insert {t t' : IndexedMerkleTree D K} {key : K} {value : BitVec 64} (reached : Reached height t)
    (done : insert t key value = .ok t') : Reached height t'
  | proveAndInsert {t t' : IndexedMerkleTree D K} {key : K} {value : BitVec 64}
    {proof : IndexedInsertionProof D K} (reached : Reached height t)
    (done : proveAndInsert t key value = .ok (proof, t')) : Reached height t'

theorem Reached.sorted (reached : Reached height t) : Sorted t := by
  induction reached with
  | new made => exact new_sorted made
  | insert _ done ih =>
    obtain ⟨low, between, inserted⟩ := insert_ok_iff.mp done
    exact inserted.sorted ih
  | proveAndInsert _ done ih =>
    obtain ⟨between, inserted, -⟩ := proveAndInsert_ok done
    exact inserted.sorted ih

/-! ## The proof that an insertion returns -/

theorem Sorted.proof_accepted [DecidableEq D] (sorted : Sorted t)
    (done : proveAndInsert t key value = .ok (proof, t')) :
    proof.getNewRoot key value t.getRoot = .ok t'.getRoot := by
  obtain ⟨between, inserted, index, low, lowProved, leafProved⟩ := proveAndInsert_ok done
  obtain ⟨faithful, faithful', height, height', same, -, first, second⟩ :=
    inserted.leaves sorted
  obtain ⟨bound, lower, upper⟩ := sorted.lowIndex_gap inserted.found
  have small : proof.index.toNat = t.leaves.length := by
    rw [index, BitVec.toNat_ofNat, Nat.mod_eq_of_lt sorted.small]
  -- the path of the low leaf leads to the root between the two writes
  have temp : proof.lowLeafProof.getRoot (proof.newLowLeaf key) proof.lowLeafIndex =
      between.getRoot := by
    rw [sorted.faithful.prove_getRoot lowProved, faithful.getRoot, first, treeRoot_update, height,
      IndexedInsertionProof.newLowLeaf, low, index]
    rfl
  -- the path of the new leaf leads to the root of any leaf in its place
  have climbs (leaf : IndexedMerkleLeaf K) : proof.leafProof.getRoot leaf proof.index =
      treeRoot D t.height (update between.leafAt t.leaves.length leaf) := by
    rw [faithful'.prove_getRoot leafProved, ← hash_update, second, small, update_idem]
    exact congrArg (treeRoot D · _) height'
  have vacant : between.leafAt t.leaves.length = Leafable.emptyLeaf D := by
    rw [← same]
    exact List.getD_eq_default _ _ (le_refl _)
  have inside : indexInDomain proof.index proof.leafProof.height = true := by
    rw [MerkleTree.prove_height leafProved]
    exact (MerkleTree.prove_eq_some_iff.mp leafProved).1
  simp only [IndexedInsertionProof.getNewRoot, bind_ok, revertIf_ok, mapError_ok,
    pure_ok, exists_unit, not_le, not_not]
  refine ⟨?_, ?_, ?_, ?_, ?_⟩
  · rw [low]
    exact lower
  · rw [low]
    exact upper
  · exact sorted.faithful.prove_verify lowProved (by rw [low]; rfl)
  · rw [temp]
    refine MerkleProof.verify_ok_iff.mpr ⟨inside, ?_⟩
    rw [climbs, ← vacant, update_eq_self, faithful.getRoot, height]
  · rw [climbs, faithful'.getRoot, second, height', IndexedInsertionProof.newLeaf, low]

/-- The sentinel keeps the bottom key from being new. -/
theorem Sorted.sentinel_mem (sorted : Sorted t) : ⊥ ∈ t.leaves.map (·.key) := by
  obtain ⟨rest, -, perm⟩ := sorted.order
  refine (mem_keys perm ⊥).mp ?_
  rw [List.map_cons, List.mem_cons]
  exact Or.inl sorted.sentinel.symm

/-- Every tree that `new` and insertions make has one candidate for a new key and none for the
    others, and the proof of an insertion leads from its root to the root after it. -/
theorem honest_insertions_prove {D B : Type} [Hashing D B] [DecidableEq D] {height : Nat}
    {t : IndexedMerkleTree D U256} (reached : Reached height t) (key : U256) (value : BitVec 64) :
    ((t.leaves.zipIdx.filter fun x => isLow key x.1).length = 1 ↔
      key ≠ 0 ∧ key ∉ t.leaves.map (·.key)) ∧
    ((∃ low, lowIndex t key = .ok low) ↔ key ≠ 0 ∧ key ∉ t.leaves.map (·.key)) ∧
    lowIndex t key ≠ .error .tooManyCandidates ∧
    ∀ proof t', proveAndInsert t key value = .ok (proof, t') →
      proof.getNewRoot key value t.getRoot = .ok t'.getRoot ∧
      ∃ t'', insert t key value = .ok t'' ∧ t''.getRoot = t'.getRoot := by
  have sorted := reached.sorted
  have proper : key ∉ t.leaves.map (·.key) → key ≠ 0 := by
    rintro new rfl
    exact new sorted.sentinel_mem
  have proves : ∀ proof t', proveAndInsert t key value = .ok (proof, t') →
      proof.getNewRoot key value t.getRoot = .ok t'.getRoot ∧
      ∃ t'', insert t key value = .ok t'' ∧ t''.getRoot = t'.getRoot := by
    intro proof t' done
    obtain ⟨between, inserted, -⟩ := proveAndInsert_ok done
    exact ⟨sorted.proof_accepted done, t', insert_ok_iff.mpr ⟨_, between, inserted⟩, rfl⟩
  rw [zipIdx_filter, List.length_map]
  rcases sorted.candidates_eq key with ⟨new, i, only⟩ | ⟨present, none⟩
  · have found := lowIndex_of_candidates only
    refine ⟨iff_of_true (by rw [only]; rfl) ⟨proper new, new⟩,
      iff_of_true ⟨_, found⟩ ⟨proper new, new⟩, ?_, proves⟩
    rw [found]
    intro same
    cases same
  · have failed := lowIndex_of_none none
    refine ⟨iff_of_false (by rw [none]; exact Nat.zero_ne_one) fun both => both.2 present,
      iff_of_false ?_ fun both => both.2 present, ?_, proves⟩
    · rintro ⟨low, found⟩
      rw [failed] at found
      cases found
    · rw [failed]
      intro same
      cases same

/-- The keys 5 and 9 in a tree of height 2. -/
def sampleTree : Except (IndexedMerkleTreeError Free.Digest U256)
    (IndexedMerkleTree Free.Digest U256) := do
  let empty ← getOrRevert (new 2) .panic
  let one ← insert empty 9 1
  insert one 5 2

/-- The insertion of a key between two present ones. -/
theorem honest_insertions_prove_between : ∃ t : IndexedMerkleTree Free.Digest U256,
    Reached 2 t ∧ t.leaves.map (·.key) = [0, 9, 5] ∧ (∃ low, lowIndex t 7 = .ok low) ∧
    ∃ proof t', proveAndInsert t 7 3 = .ok (proof, t') ∧
      proof.getNewRoot 7 3 t.getRoot = .ok t'.getRoot := by
  have known : (sampleTree.toOption.map fun t =>
      (t.leaves.map (·.key), (proveAndInsert t 7 3).toOption.isSome)) =
        some ([0, 9, 5], true) := by
    decide +kernel
  cases made : sampleTree with
  | error e =>
    rw [made] at known
    cases known
  | ok t =>
    simp only [made, Except.toOption, Option.map_some, Option.some.injEq, Prod.mk.injEq] at known
    obtain ⟨keys, inserts⟩ := known
    simp [sampleTree] at made
    obtain ⟨empty, fresh, one, first, second⟩ := made
    have reached : Reached 2 t := .insert (.insert (.new fresh) first) second
    have run := honest_insertions_prove reached 7 3
    refine ⟨t, reached, keys, run.2.1.mpr ⟨by decide, by rw [keys]; decide⟩, ?_⟩
    cases done : proveAndInsert t 7 3 with
    | error e =>
      rw [done] at inserts
      cases inserts
    | ok result => exact ⟨result.1, result.2, rfl, (run.2.2.2 _ _ done).1⟩

end IndexedMerkleTree

end

end Intmax.Trees
