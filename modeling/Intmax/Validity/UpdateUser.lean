import Intmax.Trees.Indexed
import Intmax.Validity.Registration

/-! # Blocks on the channel tree

A block names one channel.  Its first active slot appends an entry to the channel's send tree,
when the whole registered cluster is the witnessed list of signers, and folds the signed
statement into the signature chain; every later slot must open the leaf that this slot wrote.
-/

namespace Intmax.Validity

open Checked Hashing Trees

structure Block (B : Type) where
  numUsers : BitVec 32
  channelId : BitVec 32
  timestamp : BitVec 64
  keyIds : List (BitVec 32)
  txTreeRoot : B
  depositHashChain : B
  channelRegHashChain : B

def maxChannelTokens : Nat := 10

def u256Items {D B : Type} (n : U256) : List (Item D B) := (u32Limbs n.val).map .elem

/-- The signed channel state without what the block supplies: the channel and the `h2` tag. -/
structure ChannelStateMessageFields (B : Type) where
  epoch : BitVec 64
  smallBlockNumber : BitVec 64
  closeFreezeNonce : BitVec 64
  fundAmounts : Fin maxChannelTokens → U256
  fundIntmaxStateRoot : B
  balanceStateH1 : B
  sharedNativeNullifierRoot : B
  unallocatedConfirmedIncoming : U256
  prevDigest : B
  stateVersion : BitVec 64

section
variable {D B : Type} [Hashing D B]

/-- An unpadded list of keys is refused. -/
def Block.hashWithPrevHash (D : Type) {B : Type} [Hashing D B] (block : Block B) (prevHash : B) :
    Option B :=
  if BitVec.ofNat 32 block.keyIds.length = block.numUsers then
    some (keccak (D := D) ([.bytes prevHash, u32Item block.channelId] ++ u64Items block.timestamp ++
      block.keyIds.map u32Item ++
      [.bytes block.txTreeRoot, .bytes block.depositHashChain, .bytes block.channelRegHashChain]))
  else none

def channelStateDomain : Nat := 0x494d4348

namespace ChannelStateMessageFields

def preimage (fields : ChannelStateMessageFields B) (channelId : BitVec 32) (h2Tag : B) :
    List (Item D B) :=
  [.elem channelStateDomain, u32Item channelId] ++ u64Items fields.epoch ++
  u64Items fields.smallBlockNumber ++ u64Items fields.closeFreezeNonce ++ [u32Item channelId] ++
  ((List.finRange maxChannelTokens).flatMap fun t => u256Items (fields.fundAmounts t)) ++
  [.bytes fields.fundIntmaxStateRoot, .bytes fields.balanceStateH1,
    .bytes fields.sharedNativeNullifierRoot] ++
  u256Items fields.unallocatedConfirmedIncoming ++ [.bytes fields.prevDigest, .bytes h2Tag] ++
  u64Items fields.stateVersion

def signingDigest (D : Type) {B : Type} [Hashing D B] (fields : ChannelStateMessageFields B)
    (channelId : BitVec 32) (h2Tag : B) : B :=
  keccak (D := D) (fields.preimage channelId h2Tag)

end ChannelStateMessageFields

/-! ## The statement that is folded for a signing block -/

def aggPkListDomain : Nat := 0x494d504c

/-- The keys in slot order, padded with zeros. -/
def aggPkListDigest (signerPks : List B) : D :=
  hashInputs ([.elem aggPkListDomain] ++
    (signerPks ++ List.replicate (maxSigCluster - signerPks.length) (zeroBytes D)).map .bytes)

def aggListLeafDomain : Nat := 0x494d414c

def aggListLeaf (message : B) (signerCount : Nat) (pkListDigest : D) : D :=
  hashInputs [.elem aggListLeafDomain, .bytes message, .field signerCount, .digest pkListDigest]

def listChainStep (prev leaf : D) : D := hashInputs [.digest prev, .digest leaf]

/-! ## The witness of a block -/

structure UpdateUserPublicInputs (D B : Type) where
  blockNumber : BlockNumber
  blockTimestamp : BitVec 64
  prevBlockHashChain : B
  prevAccountTreeRoot : D
  newBlockHashChain : B
  newAccountTreeRoot : D
  depositHashChain : B
  channelRegHashChain : B
  prevBpSigChain : B
  newBpSigChain : B

structure UpdateUserTree (D B : Type) where
  prevBlockHashChain : B
  prevAccountTreeRoot : D
  blockNumber : BlockNumber
  block : Block B
  prevAccountLeaves : List (ChannelLeaf D)
  userMerkleProofs : List (MerkleProof D)
  sendMerkleProofs : List (MerkleProof D)
  prevBpSigChain : B
  memberLeaves : List (MemberLeaf D)
  newMemberLeaves : List (MemberLeaf D)
  signerCount : BitVec 32
  memberRegevPks : List RegevPk
  channelStateFields : ChannelStateMessageFields B
  txV2Indices : List (BitVec 64)
  txV2s : List (TxV2 D)
  txV2MerkleProofs : List (MerkleProof D)
  channelActionIndices : List (BitVec 64)
  channelActions : List (ChannelAction D B)
  channelActionMerkleProofs : List (MerkleProof D)

/-- The causes of a refusal, by the slot they report. -/
inductive UpdateUserTreeError (D : Type) where
  | witnessLengths
  | keyIdsNotPadded
  | memberLeavesLength (length : Nat)
  | newMemberLeavesNotEmpty
  | channelIdZero
  | accountProof (slot : Nat) (error : MerkleProofError D)
  | zeroTxTreeRoot (slot : Nat)
  | slotOutsideMembers (slot : Nat)
  | signerCountOutOfRange (signerCount : BitVec 32)
  | memberSlotNotEmpty (slot signerCount : Nat)
  | memberSlotWithoutPkG (slot signerCount : Nat)
  | slotNotActive (slot signerCount : Nat)
  | memberRootMismatch (slot : Nat)
  | regevPkMismatch (slot : Nat)
  | bpSigChainNotCanonical
  | txIndexMismatch (slot : Nat) (index : BitVec 64)
  | txProof (slot : Nat) (error : MerkleProofError D)
  | nonceMismatch (slot : Nat) (expected got : BitVec 32)
  | userTransferWithActionRoot (slot : Nat)
  | channelActionWithTransferRoot (slot : Nat)
  | channelActionProof (slot : Nat) (error : MerkleProofError D)
  | sourceChannelMismatch (slot : Nat)
  | memberSetUpdateRetired (slot : Nat)
  | sendProof (slot : Nat) (error : MerkleProofError D)
  | panic

/-- What the loop over the slots carries along. -/
structure Progress (D B : Type) where
  accountTreeRoot : D
  bpSigChain : B

namespace UpdateUserTree

variable [DecidableEq D] [DecidableEq B]

def checkNOfNWitness (w : UpdateUserTree D B) (i : Nat) (prevUserLeaf : ChannelLeaf D) :
    Except (UpdateUserTreeError D) Unit := do
  revertIf (w.block.txTreeRoot = zeroBytes D) (.zeroTxTreeRoot i)
  revertIf (maxSigCluster ≤ i) (.slotOutsideMembers i)
  revertIf (w.signerCount.toNat < 2 ∨ maxSigCluster < w.signerCount.toNat)
    (.signerCountOutOfRange w.signerCount)
  let signerCount := w.signerCount.toNat
  w.memberLeaves.zipIdx.forM fun (leaf, slot) => do
    revertIf (signerCount ≤ slot ∧ leaf ≠ Leafable.emptyLeaf D)
      (.memberSlotNotEmpty slot signerCount)
    revertIf (slot < signerCount ∧ leaf.pkG = zeroDigest) (.memberSlotWithoutPkG slot signerCount)
  revertIf (signerCount ≤ i) (.slotNotActive i signerCount)
  let tree ← getOrRevert
    ((IncrementalMerkleTree.new (MemberLeaf D) memberTreeHeight).pushAll w.memberLeaves) .panic
  revertIf (tree.getRoot ≠ prevUserLeaf.memberPubkeysRoot) (.memberRootMismatch i)
  let regevPk ← getOrRevert w.memberRegevPks[i]? .panic
  let digest ← getOrRevert regevPk.poseidonDigest .panic
  let leaf ← getOrRevert w.memberLeaves[i]? .panic
  revertIf (digest ≠ leaf.regevPkDigest) (.regevPkMismatch i)

/-- What a transaction may be. -/
def checkTxClass (w : UpdateUserTree D B) (i : Nat) (tx : TxV2 D) :
    Except (UpdateUserTreeError D) Unit :=
  match tx.txClass with
  | .userTransfer => revertIf (tx.channelActionRoot ≠ zeroDigest) (.userTransferWithActionRoot i)
  | .channelAction => do
    revertIf (tx.transferTreeRoot ≠ zeroDigest) (.channelActionWithTransferRoot i)
    let action ← getOrRevert w.channelActions[i]? .panic
    let proof ← getOrRevert w.channelActionMerkleProofs[i]? .panic
    let index ← getOrRevert w.channelActionIndices[i]? .panic
    (proof.verify action index tx.channelActionRoot).mapError (.channelActionProof i)
    revertIf (action.sourceChannelId ≠ w.block.channelId) (.sourceChannelMismatch i)
    match action.kind with
    | .interChannelSend | .channelClose => pure ()
    | .memberSetUpdate => .error (.memberSetUpdateRetired i)

/-- The leaf that the statement of this block adds to the signature chain. -/
def sigLeaf (w : UpdateUserTree D B) : D :=
  aggListLeaf (w.channelStateFields.signingDigest D w.block.channelId w.block.txTreeRoot)
    w.signerCount.toNat (aggPkListDigest (w.memberLeaves.map fun leaf => ofDigest leaf.pkG))

/-- The entry that this block adds to the send tree. -/
def newSendLeaf (w : UpdateUserTree D B) (prevUserLeaf : ChannelLeaf D) : SendLeaf B :=
  { prev := prevUserLeaf.prev, cur := w.blockNumber, txTreeRoot := w.block.txTreeRoot }

/-- The leaf of the channel after the send.  A 32-bit index wraps around. -/
def newUserLeaf (w : UpdateUserTree D B) (prevUserLeaf : ChannelLeaf D) (sendTreeRoot : D) :
    ChannelLeaf D :=
  { index := prevUserLeaf.index + 1, prev := w.blockNumber, sendTreeRoot
    memberPubkeysRoot := prevUserLeaf.memberPubkeysRoot }

/-- An active slot of a channel that this block has not updated yet. -/
def send (w : UpdateUserTree D B) (i : Nat) (prevUserLeaf : ChannelLeaf D)
    (userMerkleProof : MerkleProof D) (p : Progress D B) :
    Except (UpdateUserTreeError D) (Progress D B) := do
  w.checkNOfNWitness i prevUserLeaf
  let prevChain ← getOrRevert (toDigest p.bpSigChain : Option D) .bpSigChainNotCanonical
  let bpSigChain := ofDigest (listChainStep prevChain w.sigLeaf)
  let tx ← getOrRevert w.txV2s[i]? .panic
  let txProof ← getOrRevert w.txV2MerkleProofs[i]? .panic
  let txIndex ← getOrRevert w.txV2Indices[i]? .panic
  revertIf (txIndex ≠ asU64 w.block.channelId) (.txIndexMismatch i txIndex)
  (txProof.verify tx txIndex (reduceToHashOut w.block.txTreeRoot)).mapError (.txProof i)
  revertIf (tx.nonce ≠ prevUserLeaf.index) (.nonceMismatch i prevUserLeaf.index tx.nonce)
  w.checkTxClass i tx
  let sendMerkleProof ← getOrRevert w.sendMerkleProofs[i]? .panic
  (sendMerkleProof.verify (Leafable.emptyLeaf D : SendLeaf B) (asU64 prevUserLeaf.index)
    prevUserLeaf.sendTreeRoot).mapError (.sendProof i)
  let sendTreeRoot := sendMerkleProof.getRoot (w.newSendLeaf prevUserLeaf)
    (asU64 prevUserLeaf.index)
  let accountTreeRoot :=
    userMerkleProof.getRoot (w.newUserLeaf prevUserLeaf sendTreeRoot) (asU64 w.block.channelId)
  pure { accountTreeRoot, bpSigChain }

/-- One slot of the block; a zero key is padding. -/
def updateSlot (w : UpdateUserTree D B) (i : Nat) (keyId : BitVec 32) (p : Progress D B) :
    Except (UpdateUserTreeError D) (Progress D B) :=
  if keyId = 0 then .ok p
  else do
    revertIf (w.block.channelId = 0) .channelIdZero
    let prevUserLeaf ← getOrRevert w.prevAccountLeaves[i]? .panic
    let userMerkleProof ← getOrRevert w.userMerkleProofs[i]? .panic
    (userMerkleProof.verify prevUserLeaf (asU64 w.block.channelId)
      p.accountTreeRoot).mapError (.accountProof i)
    if prevUserLeaf.prev = w.blockNumber then pure p
    else w.send i prevUserLeaf userMerkleProof p

def updateSlots (w : UpdateUserTree D B) :
    List (BitVec 32 × Nat) → Progress D B → Except (UpdateUserTreeError D) (Progress D B)
  | [], p => .ok p
  | (keyId, i) :: rest, p => do
    let p ← w.updateSlot i keyId p
    updateSlots w rest p

def lengthsMatch (w : UpdateUserTree D B) : Bool :=
  [w.prevAccountLeaves.length, w.userMerkleProofs.length, w.sendMerkleProofs.length,
    w.memberRegevPks.length, w.txV2Indices.length, w.txV2s.length, w.txV2MerkleProofs.length,
    w.channelActionIndices.length, w.channelActions.length,
    w.channelActionMerkleProofs.length].all (· == w.block.numUsers.toNat)

def toPublicInputs (w : UpdateUserTree D B) :
    Except (UpdateUserTreeError D) (UpdateUserPublicInputs D B) := do
  revertIf (w.lengthsMatch = false) .witnessLengths
  let newBlockHashChain ← getOrRevert (w.block.hashWithPrevHash D w.prevBlockHashChain)
    .keyIdsNotPadded
  revertIf (w.memberLeaves.length ≠ maxSigCluster) (.memberLeavesLength w.memberLeaves.length)
  revertIf (w.newMemberLeaves ≠ []) .newMemberLeavesNotEmpty
  let p ← w.updateSlots w.block.keyIds.zipIdx
    { accountTreeRoot := w.prevAccountTreeRoot, bpSigChain := w.prevBpSigChain }
  pure
    { blockNumber := w.blockNumber
      blockTimestamp := w.block.timestamp
      prevBlockHashChain := w.prevBlockHashChain
      prevAccountTreeRoot := w.prevAccountTreeRoot
      newBlockHashChain
      newAccountTreeRoot := p.accountTreeRoot
      depositHashChain := w.block.depositHashChain
      channelRegHashChain := w.block.channelRegHashChain
      prevBpSigChain := w.prevBpSigChain
      newBpSigChain := p.bpSigChain }

end UpdateUserTree

end

end Intmax.Validity
