import Intmax.Circuits.Splitting
import Intmax.Validity.Registration

/-! # The circuit of the registration step

`ChannelRegStepTarget::new` lays the checks of a registration down as constraints.  The members
are witnessed once, as digests, and both the tree of members and the bytes that Keccak hashes are
computed from these.
-/

namespace Intmax.Validity

open Checked Gadgets Hashing Trees List Target ChannelRegRecord

/-- Pairs of neighbours, hashed. -/
def hashPairs {D B : Type} [Hashing D B] : List D → List D
  | left :: right :: rest => twoToOne left right :: hashPairs rest
  | rest => rest

/-- `compute_member_tree_root`: one level per round. -/
def computeMemberTreeRoot {D B : Type} [Hashing D B] (leafHashes : List D) : D :=
  (hashPairs^[memberTreeHeight] leafHashes).headD zeroDigest

/-- `lt_const_threshold`: the sum of the comparisons of `memberCount` with the constants above
    `i`, of which at most one holds. -/
def ltConstThreshold (i : Nat) (memberCount : Target) : Bool :=
  (List.range' (i + 1) (maxSigCluster - i)).any fun t => memberCount = .ofNat t

/-- The witnessed values of the circuit. -/
structure ChannelRegStepTarget (D B : Type) where
  isInitial : Bool
  initialChannelRegHashChain : B
  initialChannelTreeRoot : D
  initialChannelRegCount : Target
  prevChannelRegChainProof : ChannelRegChainPublicInputs D B
  channelId : Target
  bpMemberSlot : Target
  memberCount : Target
  delegateCount : Target
  memberPkGes : Nat → D
  memberPkBs : Nat → D
  memberRegevPkDigests : Nat → D
  memberRecipients : Nat → Address
  channelMerkleProof : MerkleProof D
  blockNumber : Target

namespace ChannelRegStepTarget

section
variable {D B : Type} [Hashing D B]

/-- `select` on the first input: the given state or that of the previous proof. -/
def select {α : Type} (t : ChannelRegStepTarget D B) (initial prev : α) : α :=
  if t.isInitial then initial else prev

def prevHashChain (t : ChannelRegStepTarget D B) : B :=
  t.select t.initialChannelRegHashChain t.prevChannelRegChainProof.channelRegHashChain

def prevTreeRoot (t : ChannelRegStepTarget D B) : D :=
  t.select t.initialChannelTreeRoot t.prevChannelRegChainProof.channelTreeRoot

def prevCount (t : ChannelRegStepTarget D B) : Target :=
  t.select t.initialChannelRegCount (.ofNat t.prevChannelRegChainProof.channelRegCount.val)

def activeCount (t : ChannelRegStepTarget D B) : Target := t.memberCount + t.delegateCount

def memberLeaf (t : ChannelRegStepTarget D B) (i : Nat) : MemberLeaf D :=
  { pkG := t.memberPkGes i, pkB := t.memberPkBs i, regevPkDigest := t.memberRegevPkDigests i }

def memberPubkeysRoot (t : ChannelRegStepTarget D B) : D :=
  computeMemberTreeRoot ((List.range maxSigCluster).map fun i => Leafable.hash (t.memberLeaf i))

/-- `channel_reg_hash_with_prev_hash_circuit`, on bytes computed from the members' digests. -/
def newHashChain (t : ChannelRegStepTarget D B) : B :=
  keccak (D := D) ([.bytes t.prevHashChain, .elem t.channelId.val, .elem t.bpMemberSlot.val,
    .elem t.memberCount.val, .elem t.delegateCount.val] ++
    (List.range maxSigCluster).flatMap fun i =>
      [.bytes (ofDigest (t.memberPkGes i)), .bytes (ofDigest (t.memberPkBs i)),
        .bytes (ofDigest (t.memberRegevPkDigests i))] ++ addressItems (t.memberRecipients i))

def incrementedCount (t : ChannelRegStepTarget D B) : Target := t.prevCount + .ofNat 1

def newChannelTreeRoot (t : ChannelRegStepTarget D B) : D :=
  t.channelMerkleProof.getRoot (ChannelRegStepWitness.newLeaf t.memberPubkeysRoot)
    (BitVec.ofNat 64 t.channelId.val)

/-- An unused slot holds no key. -/
structure PaddingSlot (t : ChannelRegStepTarget D B) (i : Nat) : Prop where
  pkG : t.memberPkGes i = zeroDigest
  pkB : t.memberPkBs i = zeroDigest
  regevPkDigest : t.memberRegevPkDigests i = zeroDigest

/-- The constraints, with the validity of a previous proof as a parameter. -/
structure Constraints (verifies : ChannelRegChainPublicInputs D B → Prop)
    (t : ChannelRegStepTarget D B) : Prop where
  initialCount : RangeCheck t.initialChannelRegCount 63
  blockNumber : RangeCheck t.blockNumber 63
  channelId : RangeCheck t.channelId 32
  bpMemberSlot : RangeCheck t.bpMemberSlot 32
  memberCount : RangeCheck t.memberCount 32
  delegateCount : RangeCheck t.delegateCount 32
  noDelegates : t.delegateCount = 0
  prevProof : t.isInitial = false → verifies t.prevChannelRegChainProof
  sameBlock : t.isInitial = false →
    Target.ofNat t.prevChannelRegChainProof.blockNumber.val = t.blockNumber
  atLeastTwo : RangeCheck (t.memberCount - .ofNat 2) 4
  atMostMax : RangeCheck (.ofNat maxSigCluster - t.memberCount) 4
  bpSlotActive : RangeCheck (t.memberCount - .ofNat 1 - t.bpMemberSlot) 4
  activeAtMostMax : RangeCheck (.ofNat maxSigCluster - t.activeCount) 4
  padding : ∀ i < maxSigCluster, ltConstThreshold i t.activeCount = false → t.PaddingSlot i
  unregistered : MerkleProofVerifies channelTreeHeight t.channelMerkleProof
    (Leafable.emptyLeaf D : ChannelLeaf D) t.channelId t.prevTreeRoot
  count : RangeCheck t.incrementedCount 63

/-- The public inputs that the circuit exposes; the numbers are those the targets hold. -/
structure Exposes (t : ChannelRegStepTarget D B)
    (pis : ChannelRegChainPublicInputs D B) : Prop where
  initialChannelRegHashChain : pis.initialChannelRegHashChain =
    t.select t.initialChannelRegHashChain t.prevChannelRegChainProof.initialChannelRegHashChain
  initialChannelTreeRoot : pis.initialChannelTreeRoot =
    t.select t.initialChannelTreeRoot t.prevChannelRegChainProof.initialChannelTreeRoot
  initialChannelRegCount : Target.ofNat pis.initialChannelRegCount.val =
    t.select t.initialChannelRegCount
      (.ofNat t.prevChannelRegChainProof.initialChannelRegCount.val)
  channelRegHashChain : pis.channelRegHashChain = t.newHashChain
  channelTreeRoot : pis.channelTreeRoot = t.newChannelTreeRoot
  channelRegCount : Target.ofNat pis.channelRegCount.val = t.incrementedCount
  blockNumber : Target.ofNat pis.blockNumber.val = t.blockNumber

end

end ChannelRegStepTarget

section
variable {D B : Type} [Hashing D B]

/-- `ChannelRegStepTarget::set_witness`. -/
def ChannelRegStepWitness.setWitness (w : ChannelRegStepWitness D B)
    (dummyProof : ChannelRegChainPublicInputs D B) : ChannelRegStepTarget D B :=
  let initial := w.initialValue.getD (zeroBytes D, zeroDigest, 0)
  { isInitial := w.initialValue.isSome
    initialChannelRegHashChain := initial.1
    initialChannelTreeRoot := initial.2.1
    initialChannelRegCount := .ofNat initial.2.2.val
    prevChannelRegChainProof := w.prevChannelRegChainProof.getD dummyProof
    channelId := .ofNat w.record.channelId.toNat
    bpMemberSlot := .ofNat w.record.bpMemberSlot.toNat
    memberCount := .ofNat w.record.memberCount.toNat
    delegateCount := .ofNat w.record.delegateCount.toNat
    memberPkGes := fun i => reduceToHashOut (w.record.member D i).pkG
    memberPkBs := fun i => reduceToHashOut (w.record.member D i).pkB
    memberRegevPkDigests := fun i => reduceToHashOut (w.record.member D i).regevPkDigest
    memberRecipients := fun i => (w.record.member D i).recipient
    channelMerkleProof := w.channelMerkleProof
    blockNumber := .ofNat w.blockNumber.val }

/-! ## The members in the circuit -/

theorem computeMemberTreeRoot_eq (leaves : Nat → MemberLeaf D) :
    computeMemberTreeRoot ((range maxSigCluster).map fun i => Leafable.hash (leaves i)) =
      treeRoot D memberTreeHeight leaves := rfl

theorem ltConstThreshold_eq {i n : Nat} (inside : n ≤ maxSigCluster) :
    ltConstThreshold i (.ofNat n) = decide (i < n) := by
  have small : ∀ t ≤ maxSigCluster, t < goldilocksOrder := fun t le =>
    lt_of_le_of_lt le (by decide)
  rw [ltConstThreshold, Bool.eq_iff_iff]
  simp
  constructor
  · rintro ⟨t, ⟨above, below⟩, same⟩
    rw [ofNat_eq_iff (small t (by omega)), ofNat_val (small n inside)] at same
    omega
  · intro active
    exact ⟨n, ⟨active, by omega⟩, rfl⟩

namespace ChannelRegRecord

variable {record : ChannelRegRecord B}

theorem reduce_zero : reduceToHashOut (zeroBytes D : B) = (zeroDigest : D) := by
  rw [← ofDigest_zero, reduceToHashOut_ofDigest]

/-- Every slot of a valid record is one of digests: an active one by its checks, an unused one
    because it is zero. -/
theorem Valid.canonical (valid : record.Valid D) {i : Nat} (slot : i < maxSigCluster) :
    ofDigest (reduceToHashOut (record.member D i).pkG : D) = (record.member D i).pkG ∧
    ofDigest (reduceToHashOut (record.member D i).pkB : D) = (record.member D i).pkB ∧
    ofDigest (reduceToHashOut (record.member D i).regevPkDigest : D) =
      (record.member D i).regevPkDigest := by
  by_cases active : i < record.memberCount.toNat
  · obtain ⟨-, ⟨pkG, isPkG⟩, ⟨pkB, isPkB⟩, regev, isRegev⟩ := valid.active i active
    rw [← isPkG, ← isPkB, ← isRegev]
    simp [reduceToHashOut_ofDigest]
  · rw [valid.padding i (not_lt.mp active) slot]
    simp [MemberRegEntry.default, reduce_zero, ofDigest_zero]

/-- The leaf of a slot in the circuit is the registered one. -/
theorem Valid.leaf (valid : record.Valid D) {i : Nat} (slot : i < maxSigCluster) :
    (record.member D i).leaf = registeredLeaves D record i := by
  by_cases active : i < record.memberCount.toNat
  · simp [registeredLeaves, active]
  · simp [registeredLeaves, active, valid.padding i (not_lt.mp active) slot, MemberRegEntry.leaf,
      MemberRegEntry.default, reduce_zero]
    rfl

theorem members_eq (record : ChannelRegRecord B) :
    record.members = (range maxSigCluster).map (record.member D) := by
  have length := record.members_length
  apply ext_getElem
  · simp [length]
  · intro i inside _
    simp [member, inside]

end ChannelRegRecord

/-! ## An accepted step satisfies the circuit -/

namespace ChannelRegStepWitness

variable {w : ChannelRegStepWitness D B} {prev pis : ChannelRegChainPublicInputs D B}
  (dummyProof : ChannelRegChainPublicInputs D B)
    {verifies : ChannelRegChainPublicInputs D B → Prop}

omit [Hashing D B] in
/-- A step starts from what it is given, or from a previous proof of the same block. -/
theorem prevPis_ok (started : w.prevPis = .ok prev) :
    (∃ chain root count, w.initialValue = some (chain, root, count) ∧
      w.prevChannelRegChainProof = none ∧ prev =
        { initialChannelRegHashChain := chain, initialChannelTreeRoot := root
          initialChannelRegCount := count, channelRegHashChain := chain, channelTreeRoot := root
          channelRegCount := count, blockNumber := w.blockNumber }) ∨
    (w.initialValue = none ∧ w.prevChannelRegChainProof = some prev ∧
      prev.blockNumber = w.blockNumber) := by
  unfold prevPis at started
  split at started
  case h_1 chain root count initial noProof =>
    cases started
    exact .inl ⟨chain, root, count, initial, noProof, rfl⟩
  case h_2 earlier noInitial proof =>
    simp at started
    obtain ⟨same, rfl⟩ := started
    exact .inr ⟨noInitial, proof, same⟩
  case h_3 => cases started

/-- What the circuit selects is the state that the step extends. -/
theorem setWitness_prev (started : w.prevPis = .ok prev) :
    let t := w.setWitness dummyProof
    t.prevHashChain = prev.channelRegHashChain ∧ t.prevTreeRoot = prev.channelTreeRoot ∧
      t.prevCount = .ofNat prev.channelRegCount.val := by
  rcases prevPis_ok started with ⟨chain, root, count, given, -, rfl⟩ | ⟨given, proof, -⟩
  · simp [ChannelRegStepTarget.prevHashChain, ChannelRegStepTarget.prevTreeRoot,
      ChannelRegStepTarget.prevCount, ChannelRegStepTarget.select, setWitness, given]
  · simp [ChannelRegStepTarget.prevHashChain, ChannelRegStepTarget.prevTreeRoot,
      ChannelRegStepTarget.prevCount, ChannelRegStepTarget.select, setWitness, given, proof]

theorem setWitness_initial (started : w.prevPis = .ok prev) :
    let t := w.setWitness dummyProof
    prev.initialChannelRegHashChain = t.select t.initialChannelRegHashChain
        t.prevChannelRegChainProof.initialChannelRegHashChain ∧
      prev.initialChannelTreeRoot = t.select t.initialChannelTreeRoot
        t.prevChannelRegChainProof.initialChannelTreeRoot ∧
      ofNat prev.initialChannelRegCount.val = t.select t.initialChannelRegCount
        (.ofNat t.prevChannelRegChainProof.initialChannelRegCount.val) := by
  rcases prevPis_ok started with ⟨chain, root, count, given, -, rfl⟩ | ⟨given, proof, -⟩
  · simp [ChannelRegStepTarget.select, setWitness, given]
  · simp [ChannelRegStepTarget.select, setWitness, given, proof]

theorem setWitness_newHashChain (valid : w.record.Valid D) (started : w.prevPis = .ok prev) :
    (w.setWitness dummyProof).newHashChain = w.record.hashWithPrevHash D
      prev.channelRegHashChain := by
  rw [ChannelRegStepTarget.newHashChain, (setWitness_prev dummyProof started).1,
    hashWithPrevHash, w.record.members_eq (D := D), flatMap_map]
  congr 2
  apply flatMap_congr
  intro i slot
  obtain ⟨pkG, pkB, regev⟩ := valid.canonical (mem_range.mp slot)
  simp only [setWitness, pkG, pkB, regev]

theorem setWitness_memberPubkeysRoot (valid : w.record.Valid D) :
    (w.setWitness dummyProof).memberPubkeysRoot =
      treeRoot D memberTreeHeight (registeredLeaves D w.record) := by
  rw [ChannelRegStepTarget.memberPubkeysRoot, computeMemberTreeRoot_eq]
  apply Merkle.root_congr
  intro i slot
  rw [← valid.leaf slot]
  rfl

theorem setWitness_padding (valid : w.record.Valid D) {i : Nat} (slot : i < maxSigCluster)
    (inactive : w.record.memberCount.toNat ≤ i) :
    (w.setWitness dummyProof).PaddingSlot i := by
  constructor <;>
    simp only [setWitness, valid.padding i inactive slot, MemberRegEntry.default, reduce_zero]

/-- The range checks on the counts are the comparisons of `validate`. -/
theorem setWitness_counts (valid : w.record.Valid D)
    (slot : w.record.bpMemberSlot.toNat < w.record.memberCount.toNat) :
    let t := w.setWitness dummyProof
    RangeCheck (t.memberCount - .ofNat 2) 4 ∧
      RangeCheck (.ofNat maxSigCluster - t.memberCount) 4 ∧
      RangeCheck (t.memberCount - .ofNat 1 - t.bpMemberSlot) 4 ∧
      t.activeCount = t.memberCount := by
  intro t
  have two_le := valid.two_le
  have le_slots : w.record.memberCount.toNat ≤ 8 := valid.le_slots
  have order : 2 ^ 32 < goldilocksOrder := by decide
  have count : t.memberCount.val = w.record.memberCount.toNat := ofNat_val (by omega)
  have bp : t.bpMemberSlot.val = w.record.bpMemberSlot.toNat := ofNat_val (by omega)
  have one : (ofNat 1).val = 1 := rfl
  have less : (t.memberCount - .ofNat 1).val = w.record.memberCount.toNat - 1 := by
    rw [Fin.sub_val_of_le (Fin.le_def.mpr (by rw [count, one]; omega)), count, one]
  refine ⟨?_, ?_, ?_, ?_⟩
  · rw [Target.rangeCheck_sub (by decide) (by decide), count]
    exact ⟨two_le, lt_of_le_of_lt (Nat.sub_le _ _) (lt_of_le_of_lt le_slots (by decide))⟩
  · rw [Target.rangeCheck_sub (by decide) (by omega), count]
    exact ⟨le_slots, lt_of_le_of_lt (Nat.sub_le _ _) (by decide)⟩
  · rw [Target.rangeCheck_sub (by decide) (by omega), less, bp]
    exact ⟨by omega, by omega⟩
  · have none_ : t.delegateCount = 0 := by
      simp only [t, setWitness, valid.no_delegates]
      rfl
    rw [ChannelRegStepTarget.activeCount, none_, Fin.add_zero]

theorem setWitness_incrementedCount (started : w.prevPis = .ok prev) {count : U63}
    (incremented : count.val = prev.channelRegCount.val + 1) :
    (w.setWitness dummyProof).incrementedCount = .ofNat count.val := by
  have before := ofNat_val (lt_order prev.channelRegCount.isLt)
  have after := lt_order count.isLt
  rw [ChannelRegStepTarget.incrementedCount, (setWitness_prev dummyProof started).2.2,
    ofNat_eq_iff after, incremented, val_add_of_lt, before]
  · rfl
  · rw [before]
    exact incremented ▸ after

theorem setWitness_index :
    BitVec.ofNat 64 (w.setWitness dummyProof).channelId.val = asU64 w.record.channelId := by
  have fits := lt_trans w.record.channelId.isLt (show 2 ^ 32 < goldilocksOrder by decide)
  have channel : (w.setWitness dummyProof).channelId.val = w.record.channelId.toNat :=
    ofNat_val fits
  rw [channel, BitVec.ofNat_toNat, asU64]

theorem setWitness_chained (started : w.prevPis = .ok prev)
    (later : (w.setWitness dummyProof).isInitial = false) :
    w.prevChannelRegChainProof = some prev ∧ prev.blockNumber = w.blockNumber := by
  rcases prevPis_ok started with ⟨_, _, _, given, -⟩ | ⟨-, proof⟩
  · simp [setWitness, given] at later
  · exact proof

variable [DecidableEq D] [DecidableEq B]

/-- Whatever the native step accepts, with a Merkle proof of the tree's height, satisfies the
    circuit. -/
theorem toPublicInputs_satisfies (accepted : w.toPublicInputs = .ok pis)
    (length : w.channelMerkleProof.siblings.length = channelTreeHeight)
    (verified : ∀ earlier, w.prevChannelRegChainProof = some earlier → verifies earlier) :
    (w.setWitness dummyProof).Constraints verifies := by
  simp only [toPublicInputs, bind_ok, mapError_ok, exists_unit, getOrRevert_ok,
    pure_ok, U63.add_eq_some] at accepted
  obtain ⟨validated, prev, started, opened, -, -, count, incremented, -⟩ := accepted
  obtain ⟨valid, slot⟩ := validate_ok_iff.mp validated
  obtain ⟨two, max, bp, active⟩ := setWitness_counts dummyProof valid slot
  have u32 (n : BitVec 32) : RangeCheck (ofNat n.toNat) 32 :=
    (rangeCheck_ofNat (lt_trans n.isLt (by decide))).mpr n.isLt
  have u63 (n : U63) : RangeCheck (ofNat n.val) 63 :=
    (rangeCheck_ofNat (lt_order n.isLt)).mpr n.isLt
  exact
    { initialCount := u63 _
      blockNumber := u63 _
      channelId := u32 _
      bpMemberSlot := u32 _
      memberCount := u32 _
      delegateCount := u32 _
      noDelegates := by
        simp only [setWitness, valid.no_delegates]
        rfl
      prevProof := fun later => by
        obtain ⟨proof, -⟩ := setWitness_chained dummyProof started later
        simpa only [setWitness, proof, Option.getD_some] using verified prev proof
      sameBlock := fun later => by
        obtain ⟨proof, same⟩ := setWitness_chained dummyProof started later
        simp [setWitness, proof, same]
      atLeastTwo := two
      atMostMax := max
      bpSlotActive := bp
      activeAtMostMax := by rwa [active]
      padding := fun i inside inactive => by
        rw [active, setWitness, ltConstThreshold_eq valid.le_slots, decide_eq_false_iff_not,
          not_lt] at inactive
        exact setWitness_padding dummyProof valid inside inactive
      unregistered :=
        { length
          inside := u32 _
          root := by
            rw [setWitness_index, (setWitness_prev dummyProof started).2.1]
            exact (MerkleProof.verify_ok_iff.mp opened).2 }
      count := by
        rw [setWitness_incrementedCount dummyProof started incremented]
        exact u63 count }

/-- The circuit exposes the public inputs that the native step computes. -/
theorem toPublicInputs_exposed (accepted : w.toPublicInputs = .ok pis) :
    (w.setWitness dummyProof).Exposes pis := by
  simp [toPublicInputs, U63.add_eq_some] at accepted
  obtain ⟨validated, prev, started, -, root, found, count, incremented, rfl⟩ := accepted
  have valid := validate_ok validated
  obtain ⟨chain, tree, initialCount⟩ := setWitness_initial dummyProof started
  exact
    { initialChannelRegHashChain := chain
      initialChannelTreeRoot := tree
      initialChannelRegCount := initialCount
      channelRegHashChain := (setWitness_newHashChain dummyProof valid started).symm
      channelTreeRoot := by
        rw [ChannelRegStepTarget.newChannelTreeRoot, setWitness_index,
          setWitness_memberPubkeysRoot dummyProof valid, ← memberPubkeysRootFor_eq valid found]
        rfl
      channelRegCount := (setWitness_incrementedCount dummyProof started incremented).symm
      blockNumber := rfl }

end ChannelRegStepWitness

end

end Intmax.Validity
