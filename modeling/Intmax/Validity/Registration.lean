import Intmax.Validity.Leaves

/-! # Registration of channels

A registration record names the cosigners of a channel.  A step of the registration chain
checks the record, finds the channel's leaf untouched and puts the root of its members there.
-/

namespace Intmax.Validity

open Checked Hashing Trees Option

abbrev Address := BitVec 160

/-- The five 32-bit limbs of an address, most significant first. -/
def addressItems {D B : Type} (a : Address) : List (Item D B) :=
  (List.range 5).map fun i => .elem (a.toNat / 2 ^ (32 * (4 - i)) % 2 ^ 32)

structure MemberRegEntry (B : Type) where
  pkG : B
  pkB : B
  regevPkDigest : B
  recipient : Address
deriving DecidableEq

/-- Active members first, then padding. -/
structure ChannelRegRecord (B : Type) where
  channelId : ChannelId
  bpMemberSlot : BitVec 32
  memberCount : BitVec 32
  delegateCount : BitVec 32
  members : List (MemberRegEntry B)
  members_length : members.length = maxSigCluster
deriving DecidableEq

inductive ChannelRegRecordError where
  | memberCountOutOfRange (memberCount : BitVec 32)
  | delegateCountNonZero (delegateCount : BitVec 32)
  | zeroActivePkG (member : Nat)
  | nonCanonicalPkG (member : Nat)
  | nonCanonicalPkB (member : Nat)
  | nonCanonicalRegevPkDigest (member : Nat)
  | duplicatePkG (member other : Nat)
  | nonZeroPaddingSlot (slot : Nat)
  | bpMemberSlotOutOfRange (bpMemberSlot memberCount : BitVec 32)
deriving DecidableEq

section
variable {D B : Type} [Hashing D B]

/-- `MemberRegEntry::default`. -/
def MemberRegEntry.default (D : Type) {B : Type} [Hashing D B] : MemberRegEntry B :=
  { pkG := zeroBytes D, pkB := zeroBytes D, regevPkDigest := zeroBytes D, recipient := 0 }

/-- The leaf that a member gets in the member tree. -/
def MemberRegEntry.leaf (entry : MemberRegEntry B) : MemberLeaf D :=
  { pkG := reduceToHashOut entry.pkG
    pkB := reduceToHashOut entry.pkB
    regevPkDigest := reduceToHashOut entry.regevPkDigest }

namespace ChannelRegRecord

def member (D : Type) {B : Type} [Hashing D B] (record : ChannelRegRecord B) (i : Nat) :
    MemberRegEntry B :=
  record.members.getD i (.default D)

def validate (D : Type) {B : Type} [Hashing D B] [DecidableEq B] (record : ChannelRegRecord B) :
    Except ChannelRegRecordError Unit := do
  revertIf (record.memberCount.toNat < 2 ∨ maxSigCluster < record.memberCount.toNat)
    (.memberCountOutOfRange record.memberCount)
  revertIf (record.delegateCount ≠ 0) (.delegateCountNonZero record.delegateCount)
  let mc := record.memberCount.toNat
  (List.range mc).forM fun i => do
    let entry := record.member D i
    revertIf (entry.pkG = zeroBytes D) (.zeroActivePkG i)
    revertIf ((toDigest entry.pkG : Option D).isNone) (.nonCanonicalPkG i)
    revertIf ((toDigest entry.pkB : Option D).isNone) (.nonCanonicalPkB i)
    revertIf ((toDigest entry.regevPkDigest : Option D).isNone) (.nonCanonicalRegevPkDigest i)
    (List.range' (i + 1) (mc - (i + 1))).forM fun j =>
      revertIf (entry.pkG = (record.member D j).pkG) (.duplicatePkG i j)
  (List.range' mc (maxSigCluster - mc)).forM fun i =>
    revertIf (record.member D i ≠ .default D) (.nonZeroPaddingSlot i)
  revertIf (record.memberCount ≤ record.bpMemberSlot)
    (.bpMemberSlotOutOfRange record.bpMemberSlot record.memberCount)

def hashWithPrevHash (D : Type) {B : Type} [Hashing D B] (record : ChannelRegRecord B)
    (prevHash : B) : B :=
  keccak (D := D) ([.bytes prevHash, u32Item record.channelId, u32Item record.bpMemberSlot,
    u32Item record.memberCount, u32Item record.delegateCount] ++
    record.members.flatMap fun m =>
      [.bytes m.pkG, .bytes m.pkB, .bytes m.regevPkDigest] ++ addressItems m.recipient)

end ChannelRegRecord

/-- The root of the registered members.  A count beyond the slots panics. -/
def memberPubkeysRootFor (D : Type) {B : Type} [Hashing D B] (record : ChannelRegRecord B) :
    Option D := do
  let active := record.memberCount.toNat + record.delegateCount.toNat
  if active ≤ record.members.length then
    let leaves := (record.members.take active).map MemberRegEntry.leaf
    let tree ← (IncrementalMerkleTree.new (MemberLeaf D) memberTreeHeight).pushAll leaves
    some tree.getRoot
  else none

/-! ## The step -/

structure ChannelRegChainPublicInputs (D B : Type) where
  initialChannelRegHashChain : B
  initialChannelTreeRoot : D
  initialChannelRegCount : U63
  channelRegHashChain : B
  channelTreeRoot : D
  channelRegCount : U63
  blockNumber : BlockNumber

/-- What a step starts from is either given or proved by a previous step. -/
structure ChannelRegStepWitness (D B : Type) where
  initialValue : Option (B × D × U63)
  prevChannelRegChainProof : Option (ChannelRegChainPublicInputs D B)
  record : ChannelRegRecord B
  channelMerkleProof : MerkleProof D
  blockNumber : BlockNumber

inductive ChannelRegStepError (D : Type) where
  | notOneInput
  | blockNumberMismatch (prev current : BlockNumber)
  | unregisteredLeaf (error : MerkleProofError D)
  | countOverflow
  | record (error : ChannelRegRecordError)
  | panic

namespace ChannelRegStepWitness

/-- The public inputs that the step extends. -/
def prevPis (w : ChannelRegStepWitness D B) :
    Except (ChannelRegStepError D) (ChannelRegChainPublicInputs D B) :=
  match w.initialValue, w.prevChannelRegChainProof with
  | some (chain, root, count), none =>
    .ok
      { initialChannelRegHashChain := chain, initialChannelTreeRoot := root
        initialChannelRegCount := count, channelRegHashChain := chain, channelTreeRoot := root
        channelRegCount := count, blockNumber := w.blockNumber }
  | none, some prev => do
    revertIf (prev.blockNumber ≠ w.blockNumber)
      (.blockNumberMismatch prev.blockNumber w.blockNumber)
    pure prev
  | _, _ => .error .notOneInput

/-- The leaf of a registered channel. -/
def newLeaf (memberPubkeysRoot : D) : ChannelLeaf D :=
  { index := 0, prev := 0, sendTreeRoot := (Leafable.emptyLeaf D : ChannelLeaf D).sendTreeRoot
    memberPubkeysRoot }

def toPublicInputs [DecidableEq D] [DecidableEq B] (w : ChannelRegStepWitness D B) :
    Except (ChannelRegStepError D) (ChannelRegChainPublicInputs D B) := do
  (w.record.validate D).mapError .record
  let prev ← w.prevPis
  let channelIndex := asU64 w.record.channelId
  (w.channelMerkleProof.verify (Leafable.emptyLeaf D : ChannelLeaf D) channelIndex
    prev.channelTreeRoot).mapError .unregisteredLeaf
  let memberPubkeysRoot ← getOrRevert (memberPubkeysRootFor D w.record) .panic
  let channelTreeRoot := w.channelMerkleProof.getRoot (newLeaf memberPubkeysRoot) channelIndex
  let channelRegCount ← getOrRevert (U63.add prev.channelRegCount 1) .countOverflow
  pure
    { prev with
      channelRegHashChain := w.record.hashWithPrevHash D prev.channelRegHashChain
      channelTreeRoot, channelRegCount, blockNumber := w.blockNumber }

end ChannelRegStepWitness

/-! ## What a valid record and an accepted step say -/

/-- What `validate` accepts. -/
structure ChannelRegRecord.Valid (D : Type) {B : Type} [Hashing D B] (record : ChannelRegRecord B) :
    Prop where
  two_le : 2 ≤ record.memberCount.toNat
  le_slots : record.memberCount.toNat ≤ maxSigCluster
  no_delegates : record.delegateCount = 0
  active : ∀ i < record.memberCount.toNat, (record.member D i).pkG ≠ zeroBytes D ∧
    (∃ d : D, ofDigest d = (record.member D i).pkG) ∧
    (∃ d : D, ofDigest d = (record.member D i).pkB) ∧
    ∃ d : D, ofDigest d = (record.member D i).regevPkDigest
  distinct : ∀ i j, i < j → j < record.memberCount.toNat →
    (record.member D i).pkG ≠ (record.member D j).pkG
  padding : ∀ i, record.memberCount.toNat ≤ i → i < maxSigCluster →
    record.member D i = .default D

theorem toDigest_isNone {b : B} : (toDigest b : Option D).isNone = false ↔
    ∃ d : D, ofDigest d = b := by
  cases found : (toDigest b : Option D) with
  | none =>
    simp
    intro d same
    rw [(toDigest_eq_some b d).mpr same] at found
    cases found
  | some d => simpa using ⟨d, (toDigest_eq_some b d).mp found⟩

theorem ChannelRegRecord.validate_ok_iff [DecidableEq B] {record : ChannelRegRecord B} :
    record.validate D = .ok () ↔
      record.Valid D ∧ record.bpMemberSlot.toNat < record.memberCount.toNat := by
  simp only [validate, bind_ok, revertIf_ok, exists_unit, forM_ok, List.mem_range,
    List.mem_range'_1, not_or, not_lt, Bool.not_eq_true, toDigest_isNone, not_not, BitVec.le_def]
  constructor
  · rintro ⟨⟨two_le, le_slots⟩, no_delegates, active, padding, slot⟩
    refine ⟨
      { two_le, le_slots, no_delegates
        active := fun i below => ?_
        distinct := fun i j less below => ?_
        padding := fun i above below => padding i ⟨above, by omega⟩ }, not_le.mp slot⟩
    · obtain ⟨nonzero, pkG, pkB, regev, -⟩ := active i below
      exact ⟨nonzero, pkG, pkB, regev⟩
    · obtain ⟨-, -, -, -, apart⟩ := active i (lt_trans less below)
      exact apart j ⟨less, by omega⟩
  · rintro ⟨valid, slot⟩
    refine ⟨⟨valid.two_le, valid.le_slots⟩, valid.no_delegates, fun i below => ?_,
      fun i inside => valid.padding i inside.1 ?_, not_le.mpr slot⟩
    · obtain ⟨nonzero, pkG, pkB, regev⟩ := valid.active i below
      exact ⟨nonzero, pkG, pkB, regev, fun j inside => valid.distinct i j inside.1 (by omega)⟩
    · have slots := valid.le_slots
      omega

theorem ChannelRegRecord.validate_ok [DecidableEq B] {record : ChannelRegRecord B}
    (accepted : record.validate D = .ok ()) : record.Valid D :=
  (validate_ok_iff.mp accepted).1

/-- The leaves of the registered members, slot by slot. -/
def registeredLeaves (D : Type) {B : Type} [Hashing D B] (record : ChannelRegRecord B)
    (slot : Nat) :
    MemberLeaf D :=
  if slot < record.memberCount.toNat then (record.member D slot).leaf else Leafable.emptyLeaf D

theorem memberPubkeysRootFor_eq {record : ChannelRegRecord B} {root : D}
    (valid : record.Valid D) (found : memberPubkeysRootFor D record = some root) :
    root = treeRoot D memberTreeHeight (registeredLeaves D record) := by
  simp [memberPubkeysRootFor, valid.no_delegates, bind_eq_some_iff] at found
  obtain ⟨inside, tree, pushed, rfl⟩ := found
  rw [pushAll_getRoot pushed]
  congr 1
  funext slot
  by_cases active : slot < record.memberCount.toNat
  · have held : slot < record.members.length := lt_of_lt_of_le active inside
    simp [listLeaves, registeredLeaves, active, ChannelRegRecord.member, held]
  · simp [listLeaves, registeredLeaves, active]

namespace ChannelRegStepWitness

/-- The root of the channel tree before the step. -/
def prevRoot (w : ChannelRegStepWitness D B) : Option D :=
  match w.prevPis with
  | .ok prev => some prev.channelTreeRoot
  | .error _ => none

/-- An accepted step finds the channel's leaf untouched and registers the channel. -/
theorem toPublicInputs_ok [DecidableEq D] [DecidableEq B] (free : CollisionFree D)
    {w : ChannelRegStepWitness D B} {pis : ChannelRegChainPublicInputs D B}
    {leaves : Nat → ChannelLeaf D} (accepted : w.toPublicInputs = .ok pis)
    (start : w.prevRoot = some (treeRoot D channelTreeHeight leaves)) :
    w.record.Valid D ∧ leaves w.record.channelId.toNat = Leafable.emptyLeaf D ∧
    pis.channelTreeRoot = treeRoot D channelTreeHeight
      (Function.update leaves w.record.channelId.toNat
        (newLeaf (treeRoot D memberTreeHeight (registeredLeaves D w.record)))) := by
  simp only [toPublicInputs, bind_ok, mapError_ok, exists_unit, getOrRevert_ok, pure_ok] at accepted
  obtain ⟨valid, prev, started, opened, root, found, count, -, rfl⟩ := accepted
  have valid := ChannelRegRecord.validate_ok valid
  simp only [prevRoot, started, some.injEq] at start
  rw [start] at opened
  obtain ⟨-, untouched, climbs⟩ := MerkleProof.verify_leaf free opened
  rw [asU64_toNat] at untouched climbs
  refine ⟨valid, untouched, ?_⟩
  rw [← memberPubkeysRootFor_eq valid found]
  exact climbs _

end ChannelRegStepWitness

end

end Intmax.Validity
