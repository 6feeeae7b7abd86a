import Intmax.Channel.State

/-! # Transfers in a channel and between channels -/

namespace Intmax.Channel

open Checked Hashing Trees Validity

/-! ## The settled-transaction chain -/

def settledTxChainDomain : Nat := 0x494d5443

def txLeafDomain : Nat := 0x494d544c

def unappliedIncomingDomain : Nat := 0x494d5549

section
variable {D B : Type} [Hashing D B]

def settledTxChainPush (D : Type) {B : Type} [Hashing D B] (chain leaf : B) : B :=
  keccak (D := D) [.elem settledTxChainDomain, .bytes chain, .bytes leaf]

def unappliedIncomingLeaf (D : Type) {B : Type} [Hashing D B] (txHash : B) : B :=
  keccak (D := D) [.elem unappliedIncomingDomain, .bytes txHash]

/-- `tx_leaf_hash` of the balance state module: a sender wing and a receiver wing. -/
def txLeafHash (D : Type) {B : Type} [Hashing D B] (sourcePkG senderDeltaDigest receiverPkG
    receiverRegevPkDigest receiverDeltaDigest : B) : B :=
  keccak (D := D)
    [.bytes (keccak (D := D) [.elem txLeafDomain, .bytes sourcePkG, .bytes senderDeltaDigest]),
      .bytes (keccak (D := D) [.elem txLeafDomain, .bytes receiverPkG,
        .bytes receiverRegevPkDigest, .bytes receiverDeltaDigest])]

end

/-- A settled-transaction accumulator holds 32-byte words; the word is hashed as eight limbs. -/
instance (priority := low) {D B : Type} [Hashing D B] : Leafable D B where
  emptyLeaf := zeroBytes D
  hash b := hashInputs [.bytes b]

/-! ## In-channel transfers -/

structure ChannelTx (B : Type) where
  recipientPkG : B
  tokenSlot : BitVec 8
  encAmount : RegevCiphertext
  nonce : B
  channelTxZkp : ChannelProofEnvelope
  senderPkG : B
  senderHashSig : List (BitVec 8)

def payDomainV2 : Nat := 0x494d5032

/-- The IMPA digest that the sender authorizes. -/
def ChannelTx.signingDigest (D : Type) {B : Type} [Hashing D B] (channelId : ChannelId)
    (prevStateDigest : B) (tx : ChannelTx B) : Option B := do
  let encAmount ← tx.encAmount.digest D
  some (keccak (D := D) [.elem payDomainV2, u32Item channelId, .bytes prevStateDigest,
    .bytes encAmount, .bytes tx.nonce, .elem tx.tokenSlot.toNat, .bytes tx.senderPkG,
    .bytes tx.recipientPkG])

/-! ## Inter-channel transfers -/

structure SmallBlockRootMessage (B : Type) where
  channelId : ChannelId
  bpMemberSlot : BitVec 8
  bpPkG : B
  smallBlockNumber : BitVec 64
  prevSmallBlockRoot : B
  txTreeRoot : B
  stateCommitmentRoot : B
  mediumEpochHint : BitVec 64
  closeFreezeNonce : BitVec 64

def smallBlockDomain : Nat := 0x494d5342

def SmallBlockRootMessage.signingDigest (D : Type) {B : Type} [Hashing D B]
    (message : SmallBlockRootMessage B) : B :=
  keccak (D := D) ([.elem smallBlockDomain, u32Item message.channelId,
    .elem message.bpMemberSlot.toNat, .bytes message.bpPkG] ++ u64Items message.smallBlockNumber ++
    [.bytes message.prevSmallBlockRoot, .bytes message.txTreeRoot,
      .bytes message.stateCommitmentRoot] ++
    u64Items message.mediumEpochHint ++ u64Items message.closeFreezeNonce)

structure SignedSmallBlock (B : Type) where
  message : SmallBlockRootMessage B
  signatures : List (MemberSignature B)
  aggregatedSignatureProof : List (BitVec 8)
  mediumBlockNumber : BitVec 64
  confirmationProof : List (BitVec 8)

structure MerkleInclusionProof (B : Type) where
  siblings : List B
  leafIndex : U256
deriving DecidableEq

/-- `MerkleInclusionProof::default`. -/
def MerkleInclusionProof.default {B : Type} : MerkleInclusionProof B :=
  { siblings := [], leafIndex := 0 }

structure ReceiverBalanceDelta (B : Type) where
  receiverPkG : B
  receiverRegevPkDigest : B
  amount : RegevCiphertext

structure InterChannelTx (D B : Type) where
  txInclusionProof : MerkleInclusionProof B
  signedSmallBlock : SignedSmallBlock B
  senderDeltaCt : RegevCiphertext
  sourceChannelId : ChannelId
  destinationChannelId : ChannelId
  tokenIndex : BitVec 32
  baseNonce : BitVec 32
  destinationBaseTransferSalt : D
  sourcePkG : B
  «seal» : B
  txHash : B
  intmaxTransferCommitment : B
  recipientMemo : List (BitVec 8)
  receiverDeltas : List (ReceiverBalanceDelta B)
  channelUpdateZkp : ChannelProofEnvelope
  transportProof : List (BitVec 8)

/-- `bytes_to_u32_words`: big-endian words, the last one padded with zeros. -/
def bytesToU32Words : List (BitVec 8) → List Nat
  | [] => []
  | [a] => [a.toNat * 2 ^ 24]
  | [a, b] => [a.toNat * 2 ^ 24 + b.toNat * 2 ^ 16]
  | [a, b, c] => [a.toNat * 2 ^ 24 + b.toNat * 2 ^ 16 + c.toNat * 2 ^ 8]
  | a :: b :: c :: d :: rest =>
    (a.toNat * 2 ^ 24 + b.toNat * 2 ^ 16 + c.toNat * 2 ^ 8 + d.toNat) :: bytesToU32Words rest

/-- A byte string with its length in front, cut to 32 bits. -/
def bytesItems {D B : Type} (bytes : List (BitVec 8)) : List (Item D B) :=
  .elem (bytes.length % 2 ^ 32) :: (bytesToU32Words bytes).map .elem

def TransitionProofRole.code : TransitionProofRole → Nat
  | .channelStateUpdate => 0
  | .intmaxTransport => 1
  | .channelCloseSettlement => 2
  | .specialCloseSettlement => 3

def ProofBackend.code : ProofBackend → Nat
  | .plonky2 => 0
  | .plonky3 => 1

def ChannelProofEnvelope.toDigestWords {D B : Type} (envelope : ChannelProofEnvelope) :
    List (Item D B) :=
  [.elem envelope.role.code, .elem envelope.backend.code] ++ bytesItems envelope.proof

def interChannelTxDomainV5 : Nat := 0x494d4935

def burnDescriptorDomain : Nat := 0x494d4432

namespace InterChannelTx

variable {D B : Type} [Hashing D B]

/-- The digest of a delta inside the IMI5 preimage. -/
def deltaItems (delta : ReceiverBalanceDelta B) : Option (List (Item D B)) := do
  let amount ← delta.amount.digest D
  some [.bytes delta.receiverPkG, .bytes delta.receiverRegevPkDigest, .bytes amount]

/-- The IMI5 digest.  The salt is hashed by the two limbs of each element, as its 32-byte form. -/
def signingDigest (tx : InterChannelTx D B) : Option B := do
  let senderDelta ← tx.senderDeltaCt.digest D
  let deltas ← tx.receiverDeltas.mapM (deltaItems (D := D))
  some (keccak (D := D) (
    [.elem interChannelTxDomainV5, .bytes (tx.signedSmallBlock.message.signingDigest D),
      .bytes senderDelta, u32Item tx.sourceChannelId, u32Item tx.destinationChannelId,
      u32Item tx.tokenIndex, u32Item tx.baseNonce, .bytes (ofDigest tx.destinationBaseTransferSalt),
      .bytes tx.sourcePkG, .bytes tx.«seal», .bytes tx.txHash,
      .bytes tx.intmaxTransferCommitment] ++
    bytesItems tx.recipientMemo ++ [.elem (tx.receiverDeltas.length % 2 ^ 32)] ++ deltas.flatten ++
    tx.channelUpdateZkp.toDigestWords ++ bytesItems tx.transportProof))

def txLeafHash (tx : InterChannelTx D B) : Except ChannelError B := do
  let receiver ← getOrRevert tx.receiverDeltas.head? (.invalidInterChannelTx
    "receiver_deltas must contain exactly one receiver (detail2 §A-2)")
  let senderDelta ← getOrRevert (tx.senderDeltaCt.digest D) .panic
  let receiverDelta ← getOrRevert (receiver.amount.digest D) .panic
  pure (Channel.txLeafHash D tx.sourcePkG senderDelta receiver.receiverPkG
    receiver.receiverRegevPkDigest receiverDelta)

end InterChannelTx

/-- `Bytes32::from_u32_slice`. -/
class OfLimbs (B : Type) where
  ofLimbs : List (BitVec 32) → B

instance : OfLimbs Free.Bytes where
  ofLimbs limbs := .word (limbs.foldl (fun n limb => n * 2 ^ 32 + limb.toNat) 0)

section
variable {D B : Type} [Hashing D B] [OfLimbs B]

def interChannelTxHash (D : Type) {B : Type} [Hashing D B] [OfLimbs B]
    (sourceChannelId destinationChannelId : ChannelId) (tokenIndex : BitVec 32)
    (txTreeRoot txLeaf : B) : B :=
  settledTxChainPush D
    (OfLimbs.ofLimbs [0, 0, 0, 0, 0, tokenIndex, destinationChannelId, sourceChannelId])
    (settledTxChainPush D txTreeRoot txLeaf)

def InterChannelTx.computeTxHash (tx : InterChannelTx D B) : Except ChannelError B := do
  let leaf ← tx.txLeafHash
  pure (interChannelTxHash D tx.sourceChannelId tx.destinationChannelId tx.tokenIndex
    tx.signedSmallBlock.message.txTreeRoot leaf)

end

def burnDescriptor (D : Type) {B : Type} [Hashing D B] (sourceChannelId : ChannelId)
    (baseNonce : BitVec 32) (txLeaf recipient : B) (tokenIndex : BitVec 32) (amount : U256) : B :=
  keccak (D := D) ([.elem burnDescriptorDomain, u32Item sourceChannelId, u32Item baseNonce,
    .bytes txLeaf, .bytes recipient, u32Item tokenIndex] ++ u256Items amount)

def l1DepositImportDomainV2 : Nat := 0x494d4c32

/-- The amount is hashed low limb first. -/
def l1DepositImportDigest (D : Type) {B : Type} [Hashing D B] (channelId : ChannelId)
    (depositNullifier : B) (tokenIndex : BitVec 32) (amount : BitVec 64)
    (depositorSlot : BitVec 16) : B :=
  keccak (D := D) [.elem l1DepositImportDomainV2, u32Item channelId, .bytes depositNullifier,
    u32Item tokenIndex, u32Item (amount.extractLsb' 0 32), u32Item (amount.extractLsb' 32 32),
    .elem depositorSlot.toNat]

/-- `u64_to_u256`. -/
def u64ToU256 (value : BitVec 64) : U256 :=
  ⟨value.toNat, lt_trans value.isLt (by decide)⟩

/-- `U256::add`; an overflow is a panic. -/
def u256Add (a b : U256) : Option U256 :=
  if inside : a.val + b.val < 2 ^ 256 then some ⟨a.val + b.val, inside⟩ else none

theorem u256Add_eq_some {a b c : U256} : u256Add a b = some c ↔ c.val = a.val + b.val := by
  unfold u256Add
  split
  case isTrue inside => simp [Fin.ext_iff, eq_comm]
  case isFalse outside =>
    simp [reduceCtorEq]
    intro same
    exact outside (same ▸ c.isLt)

@[simp] theorem u64ToU256_val (value : BitVec 64) : (u64ToU256 value).val = value.toNat := rfl

end Intmax.Channel
