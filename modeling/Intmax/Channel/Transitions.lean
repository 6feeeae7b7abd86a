import Intmax.Channel.Checks

/-! # The seven transitions of a channel state

Each transition has a witness and a `verify` that every co-signer runs before it signs the next
state.  The checks stand in the order of the source; a long `verify` is cut where the program may
abort, so that each part but the first begins with what may abort.
-/

namespace Intmax.Channel

open Checked Hashing Trees Validity

variable {D B : Type} [Hashing D B] [DecidableEq B]

/-- The public inputs of a transition; only these arguments differ between the kinds. -/
def updateInputs (kind : ChannelTransitionKind) (prev next : ChannelState B) (amount : BitVec 64)
    (receiverEntryCount : BitVec 64) (senderUserIdHash receiverUserIdHash transitionDigest : B) :
    ChannelStateUpdatePublicInputs B where
  kind := kind
  channelId := prev.channelId
  prevStateDigest := prev.digest
  nextStateDigest := next.digest
  amount := amount
  prevStateVersion := prev.balanceState.stateVersion
  nextStateVersion := next.balanceState.stateVersion
  h2Tag := next.h2Tag
  prevSettledTxChain := prev.balanceState.settledTxChain
  nextSettledTxChain := next.balanceState.settledTxChain
  receiverEntryCount := receiverEntryCount
  senderUserIdHash := senderUserIdHash
  receiverUserIdHash := receiverUserIdHash
  channelFundBefore := prev.channelFund.amounts
  channelFundAfter := next.channelFund.amounts
  unallocatedBefore := prev.unallocatedConfirmedIncoming
  unallocatedAfter := next.unallocatedConfirmedIncoming
  sharedNullifierBefore := prev.sharedNativeNullifierRoot
  sharedNullifierAfter := next.sharedNativeNullifierRoot
  transitionDigest := transitionDigest

/-! ## In-channel transfer -/

structure InChannelTransferUpdateWitness (B : Type) where
  channelRecord : ChannelRecord B
  regevPks : Slots RegevPk
  prevState : ChannelState B
  nextState : ChannelState B
  channelTx : ChannelTx B
  senderIndex : Nat
  recipientIndex : Nat
  recipientSk : Option RegevSk
  expectedAmount : Option (BitVec 64)

/-- The checks of `verify` before the transaction is hashed. -/
def InChannelTransferUpdateWitness.verifyParties (D : Type) {B : Type} [Hashing D B]
    [DecidableEq B] (w : InChannelTransferUpdateWitness B) : Check := do
  let prev := w.prevState
  let next := w.nextState
  verifyRegevPkRoot D w.channelRecord w.regevPks
  verifyStateLinkage D prev next
  verifyBalanceStateCommon D w.channelRecord prev next
  requireSmallBlockUnchanged prev next
  requireH2Zero D next
  requireChainUnchanged prev next
  requireAccumulatorUnchanged prev.balanceState.settledTxAccumulatorRoot
    next.balanceState.settledTxAccumulatorRoot
  ensureSameChannelFund prev next
  ensureSameU256 "unallocated_confirmed_incoming" prev.unallocatedConfirmedIncoming
    next.unallocatedConfirmedIncoming
  ensureSameRoot "shared_native_nullifier_root" prev.sharedNativeNullifierRoot
    next.sharedNativeNullifierRoot
  verifyNextStateSignatures D w.channelRecord next
  let sender ← memberIndexPubkeyHash w.channelRecord w.senderIndex
  let recipient ← memberIndexPubkeyHash w.channelRecord w.recipientIndex
  revertIf (w.senderIndex = w.recipientIndex)
    (.invalidStateLinkage "sender and recipient must be distinct members")
  revertIf (w.channelTx.senderPkG ≠ sender) (.invalidTransitionDigest
    s!"channel_tx.sender_pk_g does not match member index {w.senderIndex}")
  revertIf (w.channelTx.recipientPkG ≠ recipient) (.invalidTransitionDigest
    s!"channel_tx.recipient_pk_g does not match member index {w.recipientIndex}")
  revertIf (w.channelTx.senderHashSig = [])
    (.invalidMemberSignatures "channel_tx sender hash-sig proof must not be empty")

def InChannelTransferUpdateWitness.verify (D : Type) {B : Type} [Hashing D B] [DecidableEq B]
    (w : InChannelTransferUpdateWitness B) (backends : Backends B) :
    Except ChannelStateUpdateError (ChannelStateUpdatePublicInputs B) := do
  let prev := w.prevState
  let next := w.nextState
  w.verifyParties D
  let txDigest ← getOrRevert (w.channelTx.signingDigest D prev.channelId prev.digest) .panic
  let tokenSlot ← activeTokenSlot prev.balanceState "" w.channelTx.tokenSlot.toNat
  requireHomomorphicAdd prev next w.recipientIndex tokenSlot "enc_amount" w.channelTx.encAmount
  ensureRowUnchangedExcept prev next w.recipientIndex tokenSlot
  ensureRowUnchangedExcept prev next w.senderIndex tokenSlot
  ensureSlotsUnchanged prev next [w.senderIndex, w.recipientIndex]
  requirePendingAddIncrement prev next w.recipientIndex tokenSlot
  requirePendingAddsReset next w.senderIndex tokenSlot
    "sender position is freshly re-encrypted; its pending_adds must reset to 0"
  requirePendingAddsUnchangedExcept prev next w.senderIndex tokenSlot
  requireSlotsAddsUnchanged prev next [w.senderIndex, w.recipientIndex]
  let senderPk ← slotAt w.regevPks w.senderIndex
  let recipientPk ← slotAt w.regevPks w.recipientIndex
  let before ← rowAt prev.balanceState.encBalances w.senderIndex
  let after ← rowAt next.balanceState.encBalances w.senderIndex
  verifyDecryptedTransferProof backends w.channelTx.channelTxZkp
    (.channelTx senderPk recipientPk (before tokenSlot) w.channelTx.encAmount (after tokenSlot))
  let balance ← rowAt next.balanceState.encBalances w.recipientIndex
  recipientDecryptionCheck backends w.recipientSk w.expectedAmount "enc_amount"
    w.channelTx.encAmount (balance tokenSlot)
  -- The amount stays hidden.
  pure (updateInputs .inChannelTransfer prev next 0 1 (hashMember D w.channelTx.senderPkG)
    (hashMember D w.channelTx.recipientPkG) txDigest)

/-! ## Inter-channel send -/

structure InterChannelSendUpdateWitness (D B : Type) where
  channelRecord : ChannelRecord B
  regevPks : Slots RegevPk
  destinationRecipientPk : RegevPk
  prevState : ChannelState B
  nextState : ChannelState B
  interChannelTx : InterChannelTx D B
  amount : BitVec 64
  transportProof : ChannelProofEnvelope

/-- The checks of `verify` up to the one receiver of the transfer. -/
def InterChannelSendUpdateWitness.verifySmallBlock (w : InterChannelSendUpdateWitness D B) :
    Except ChannelStateUpdateError (ReceiverBalanceDelta B) := do
  let prev := w.prevState
  let next := w.nextState
  let tx := w.interChannelTx
  verifyRegevPkRoot D w.channelRecord w.regevPks
  verifyStateLinkage D prev next
  verifyBalanceStateCommon D w.channelRecord prev next
  verifyNextStateSignatures D w.channelRecord next
  validateSignedSmallBlock w.channelRecord prev.channelId prev.closeFreezeNonce tx
  revertIf (prev.channelId ≠ tx.sourceChannelId)
    (.invalidStateLinkage "source channel id mismatch")
  let message := tx.signedSmallBlock.message
  revertIf (message.txTreeRoot = zeroBytes D)
    (.invalidH2Tag "inter-channel small block tx_tree_root must not be zero")
  revertIf (next.h2Tag ≠ message.txTreeRoot)
    (.invalidH2Tag "next state h2_tag must equal the small block tx_tree_root")
  let h1 ← getOrRevert (next.balanceState.h1 D) .panic
  revertIf (message.stateCommitmentRoot ≠ h1) (.invalidSmallBlock
    "small block state_commitment_root must equal next balance state h1")
  singleReceiverDelta tx

/-- The checks on the receiver's key and ciphertext. -/
def InterChannelSendUpdateWitness.verifyReceiver (w : InterChannelSendUpdateWitness D B)
    (receiverDelta : ReceiverBalanceDelta B) : Check := do
  let recipientKey ← getOrRevert (w.destinationRecipientPk.poseidonDigest : Option D) .panic
  revertIf (receiverDelta.receiverRegevPkDigest ≠ ofDigest recipientKey)
    (.invalidReceiverDeltaBundle "receiver delta key digest != the E-2 recipient key digest")
  -- The receiver of a burn is nobody, and its delta is encrypted to the padding key.
  if w.interChannelTx.destinationChannelId = burnChannelId then .ok ()
  else requireKeyDependent "receiver delta" receiverDelta.amount

/-- The checks on what the transfer settles, up to its token. -/
def InterChannelSendUpdateWitness.verifySettledTx [OfLimbs B]
    (w : InterChannelSendUpdateWitness D B) (receiverDelta : ReceiverBalanceDelta B) :
    Except ChannelStateUpdateError (Fin maxChannelTokens) := do
  let tx := w.interChannelTx
  let txLeaf ← tx.txLeafHash.mapError (·.report .invalidSettledTxChain)
  let chainLeaf :=
    if tx.destinationChannelId = burnChannelId then
      burnDescriptor D tx.sourceChannelId tx.baseNonce txLeaf receiverDelta.receiverPkG
        tx.tokenIndex (u64ToU256 w.amount)
    else txLeaf
  requireChainPush D w.prevState w.nextState chainLeaf
  let tokenSlot ← resolveTokenSlot w.prevState.balanceState tx.tokenIndex
  requireTokenBearingTxHash tx
  pure tokenSlot

def InterChannelSendUpdateWitness.verify [OfLimbs B] (w : InterChannelSendUpdateWitness D B)
    (backends : Backends B) :
    Except ChannelStateUpdateError (ChannelStateUpdatePublicInputs B) := do
  let prev := w.prevState
  let next := w.nextState
  let tx := w.interChannelTx
  let receiverDelta ← w.verifySmallBlock
  w.verifyReceiver receiverDelta
  let tokenSlot ← w.verifySettledTx receiverDelta
  requireIncrease (next.channelFund.amounts tokenSlot) (prev.channelFund.amounts tokenSlot) w.amount
    "channel fund must decrease by transfer amount at the resolved token position"
  ensureFundsUnchangedExcept prev next tokenSlot
  ensureFundIdentityUnchanged prev next
  ensureSameU256 "unallocated_confirmed_incoming" prev.unallocatedConfirmedIncoming
    next.unallocatedConfirmedIncoming
  ensureDifferentRoot "shared_native_nullifier_root" prev.sharedNativeNullifierRoot
    next.sharedNativeNullifierRoot
  let sender ← memberSlotIndex w.channelRecord tx.sourcePkG
  ensureSlotsFrozen prev next [sender.val]
  ensureRowUnchangedExcept prev next sender.val tokenSlot
  requirePendingAddsReset next sender.val tokenSlot
    "sender position is freshly re-encrypted; its pending_adds must reset to 0"
  requirePendingAddsUnchangedExcept prev next sender.val tokenSlot
  let before ← rowAt prev.balanceState.encBalances sender.val
  let after ← rowAt next.balanceState.encBalances sender.val
  verifyDecryptedTransferProof backends tx.channelUpdateZkp
    (.channelUpdate (w.regevPks sender) w.destinationRecipientPk (before tokenSlot)
      (after tokenSlot) tx.senderDeltaCt receiverDelta.amount w.amount tx.tokenIndex)
  revertIf (tx.transportProof ≠ w.transportProof.proof)
    (.invalidTransitionDigest "transport proof bytes must match transport_proof")
  let digest ← getOrRevert tx.signingDigest .panic
  let publicInputs := updateInputs .interChannelSend prev next w.amount 1
    (hashMember D tx.sourcePkG) (hashMember D receiverDelta.receiverPkG) digest
  verifyProof backends w.transportProof .intmaxTransport .plonky2 publicInputs
  pure publicInputs

/-! ## Fund import -/

structure InterChannelFundImportUpdateWitness (D B : Type) where
  sourceChannelRecord : ChannelRecord B
  receiverChannelRecord : ChannelRecord B
  prevState : ChannelState B
  nextState : ChannelState B
  interChannelTx : InterChannelTx D B
  amount : BitVec 64
  transportProof : ChannelProofEnvelope

/-- The first active member of the receiving channel with this key hash. -/
def activeMemberIndex (record : ChannelRecord B) (pubkeyHash : B) :
    Except ChannelStateUpdateError (Fin maxChannelMembers) :=
  getOrRevert ((List.finRange maxChannelMembers).find? fun i =>
      decide (i.val < record.memberCount.toNat + record.delegateCount.toNat ∧
        record.memberPkGs i = pubkeyHash))
    (.invalidReceiverDeltaBundle
      "fund import: receiver_pk_g is not an active member of the receiving channel")

/-- The checks of `verify` before the transfer is hashed. -/
def InterChannelFundImportUpdateWitness.verifySmallBlock
    (w : InterChannelFundImportUpdateWitness D B) : Check := do
  let prev := w.prevState
  let next := w.nextState
  let tx := w.interChannelTx
  verifyStateLinkage D prev next
  verifyBalanceStateCommon D w.receiverChannelRecord prev next
  verifyNextStateSignatures D w.receiverChannelRecord next
  -- The nonce is compared with itself here.
  validateSignedSmallBlock w.sourceChannelRecord tx.sourceChannelId
    tx.signedSmallBlock.message.closeFreezeNonce tx
  revertIf (prev.channelId ≠ tx.destinationChannelId)
    (.invalidStateLinkage "destination channel id mismatch")
  requireH2Zero D next

/-- The checks on what the transfer settles, up to its token. -/
def InterChannelFundImportUpdateWitness.verifySettledTx [OfLimbs B]
    (w : InterChannelFundImportUpdateWitness D B) :
    Except ChannelStateUpdateError (Fin maxChannelTokens) := do
  let tx := w.interChannelTx
  let settleTag ← tx.txLeafHash.mapError (·.report .invalidSettledTxChain)
  requireChainPush D w.prevState w.nextState settleTag
  let tokenSlot ← resolveTokenSlot w.prevState.balanceState tx.tokenIndex
  requireTokenBearingTxHash tx
  pure tokenSlot

/-- The checks on the fund. -/
def InterChannelFundImportUpdateWitness.verifyFund (w : InterChannelFundImportUpdateWitness D B)
    (tokenSlot : Fin maxChannelTokens) : Check := do
  let prev := w.prevState
  let next := w.nextState
  requireIncrease (prev.channelFund.amounts tokenSlot) (next.channelFund.amounts tokenSlot) w.amount
    "channel fund must increase by imported amount at the resolved token position"
  ensureFundsUnchangedExcept prev next tokenSlot
  ensureFundIdentityUnchanged prev next

/-- The checks on what is not allocated yet, up to the first receiver. -/
def InterChannelFundImportUpdateWitness.verifyReceiver
    (w : InterChannelFundImportUpdateWitness D B) :
    Except ChannelStateUpdateError (ReceiverBalanceDelta B) := do
  let prev := w.prevState
  let next := w.nextState
  let tx := w.interChannelTx
  requireIncrease prev.unallocatedConfirmedIncoming next.unallocatedConfirmedIncoming w.amount
    "unallocated_confirmed_incoming must increase by imported amount"
  ensureSlotsFrozen prev next []
  ensureDifferentRoot "shared_native_nullifier_root" prev.sharedNativeNullifierRoot
    next.sharedNativeNullifierRoot
  revertIf (tx.transportProof ≠ w.transportProof.proof)
    (.invalidTransitionDigest "transport proof bytes must match transport_proof")
  let receiverDelta ← getOrRevert tx.receiverDeltas.head?
    (.invalidReceiverDeltaBundle "fund import requires the receiver delta entry")
  let recipient ← activeMemberIndex w.receiverChannelRecord receiverDelta.receiverPkG
  revertIf (prev.balanceState.regevPkDigests recipient ≠ receiverDelta.receiverRegevPkDigest)
    (.invalidReceiverDeltaBundle
      ("fund import: receiver delta key digest != this channel's committed key at slot " ++
        s!"{recipient.val}"))
  requireKeyDependent "fund import: receiver delta" receiverDelta.amount
  pure receiverDelta

def InterChannelFundImportUpdateWitness.verify [OfLimbs B]
    (w : InterChannelFundImportUpdateWitness D B) (backends : Backends B) :
    Except ChannelStateUpdateError (ChannelStateUpdatePublicInputs B) := do
  let tx := w.interChannelTx
  w.verifySmallBlock
  let tokenSlot ← w.verifySettledTx
  w.verifyFund tokenSlot
  let receiverDelta ← w.verifyReceiver
  let digest ← getOrRevert tx.signingDigest .panic
  let publicInputs := updateInputs .interChannelFundImport w.prevState w.nextState w.amount
    (BitVec.ofNat 64 tx.receiverDeltas.length) (hashMember D tx.sourcePkG)
    (hashMember D receiverDelta.receiverPkG) digest
  verifyProof backends w.transportProof .intmaxTransport .plonky2 publicInputs
  pure publicInputs

/-! ## Deposit import -/

structure L1DepositImportUpdateWitness (B : Type) where
  channelRecord : ChannelRecord B
  prevState : ChannelState B
  nextState : ChannelState B
  amount : BitVec 64
  depositNullifier : B
  tokenIndex : BitVec 32
  depositorSlot : Nat

section
variable (D : Type) {B : Type} [Hashing D B] [DecidableEq B] (w : L1DepositImportUpdateWitness B)

/-- The checks of `verify` up to the token. -/
def L1DepositImportUpdateWitness.verifyToken :
    Except ChannelStateUpdateError (Fin maxChannelTokens) := do
  let prev := w.prevState
  let next := w.nextState
  verifyStateLinkage D prev next
  verifyBalanceStateCommon D w.channelRecord prev next
  verifyNextStateSignatures D w.channelRecord next
  requireH2Zero D next
  requireChainPush D prev next w.depositNullifier
  resolveTokenSlot prev.balanceState w.tokenIndex

/-- The checks on the fund. -/
def L1DepositImportUpdateWitness.verifyFund (tokenSlot : Fin maxChannelTokens) : Check := do
  let prev := w.prevState
  let next := w.nextState
  requireIncrease (prev.channelFund.amounts tokenSlot) (next.channelFund.amounts tokenSlot) w.amount
    "channel fund must increase by deposited amount at the resolved token position"
  ensureFundsUnchangedExcept prev next tokenSlot

/-- The checks on what is not allocated yet, before the depositor is looked up. -/
def L1DepositImportUpdateWitness.verifyIncoming : Check := do
  let prev := w.prevState
  let next := w.nextState
  requireIncrease prev.unallocatedConfirmedIncoming next.unallocatedConfirmedIncoming w.amount
    "unallocated_confirmed_incoming must increase by deposited amount"
  ensureSlotsFrozen prev next []
  ensureDifferentRoot "shared_native_nullifier_root" prev.sharedNativeNullifierRoot
    next.sharedNativeNullifierRoot

def L1DepositImportUpdateWitness.verify :
    Except ChannelStateUpdateError (ChannelStateUpdatePublicInputs B) := do
  let prev := w.prevState
  let tokenSlot ← w.verifyToken D
  w.verifyFund tokenSlot
  w.verifyIncoming
  let depositor ← slotAt w.channelRecord.memberPkGs w.depositorSlot
  let digest := l1DepositImportDigest D prev.channelId w.depositNullifier w.tokenIndex w.amount
    (BitVec.ofNat 16 w.depositorSlot)
  pure (updateInputs .l1DepositImport prev w.nextState w.amount 0 (hashMember D depositor)
    (hashMember D depositor) digest)

end

/-! ## Applying a bundle -/

structure ReceiverBundleApplyUpdateWitness (D B : Type) where
  incomingTxIndex : BitVec 64
  incomingTxInclusion : MerkleProof D
  receiverChannelRecord : ChannelRecord B
  regevPks : Slots RegevPk
  sourceSenderPk : RegevPk
  senderBeforeCt : RegevCiphertext
  senderAfterCt : RegevCiphertext
  prevState : ChannelState B
  nextState : ChannelState B
  interChannelTx : InterChannelTx D B
  amount : BitVec 64
  recipientIndex : Nat
  recipientSk : Option RegevSk
  expectedAmount : Option (BitVec 64)

/-- The checks of `verify` before the amount is allocated. -/
def ReceiverBundleApplyUpdateWitness.verifyStates (w : ReceiverBundleApplyUpdateWitness D B) :
    Check := do
  let prev := w.prevState
  let next := w.nextState
  let tx := w.interChannelTx
  verifyRegevPkRoot D w.receiverChannelRecord w.regevPks
  verifyStateLinkage D prev next
  verifyBalanceStateCommon D w.receiverChannelRecord prev next
  verifyNextStateSignatures D w.receiverChannelRecord next
  revertIf (prev.channelId ≠ tx.destinationChannelId)
    (.invalidStateLinkage "destination channel id mismatch")
  requireH2Zero D next
  ensureSameChannelFund prev next

/-- The checks on what the bundle allocates: its receiver with the key, and its token. -/
def ReceiverBundleApplyUpdateWitness.verifyRecipient (w : ReceiverBundleApplyUpdateWitness D B) :
    Except ChannelStateUpdateError
      (ReceiverBalanceDelta B × RegevPk × Fin maxChannelTokens) := do
  let prev := w.prevState
  let next := w.nextState
  let tx := w.interChannelTx
  requireIncrease next.unallocatedConfirmedIncoming prev.unallocatedConfirmedIncoming w.amount
    "unallocated_confirmed_incoming must decrease by bundle amount"
  ensureSameRoot "shared_native_nullifier_root" prev.sharedNativeNullifierRoot
    next.sharedNativeNullifierRoot
  let receiverDelta ← singleReceiverDelta tx
  let recipient ← memberIndexPubkeyHash w.receiverChannelRecord w.recipientIndex
  revertIf (receiverDelta.receiverPkG ≠ recipient) (.invalidReceiverDeltaBundle
    s!"receiver delta user does not match member index {w.recipientIndex}")
  let recipientPk ← slotAt w.regevPks w.recipientIndex
  let recipientKey ← getOrRevert (recipientPk.poseidonDigest : Option D) .panic
  revertIf (receiverDelta.receiverRegevPkDigest ≠ ofDigest recipientKey)
    (.invalidReceiverDeltaBundle
      ("receiver delta key digest does not match the registered key at member index " ++
        s!"{w.recipientIndex}"))
  requireKeyDependent "receiver delta" receiverDelta.amount
  requireChainUnchanged prev next
  requireIncomingApplication prev.balanceState.settledTxAccumulatorRoot
    next.balanceState.settledTxAccumulatorRoot tx.txHash w.incomingTxIndex w.incomingTxInclusion
  let tokenSlot ← resolveTokenSlot prev.balanceState tx.tokenIndex
  pure (receiverDelta, recipientPk, tokenSlot)

def ReceiverBundleApplyUpdateWitness.verify [OfLimbs B]
    (w : ReceiverBundleApplyUpdateWitness D B) (backends : Backends B) :
    Except ChannelStateUpdateError (ChannelStateUpdatePublicInputs B) := do
  let prev := w.prevState
  let next := w.nextState
  let tx := w.interChannelTx
  w.verifyStates
  let (receiverDelta, recipientPk, tokenSlot) ← w.verifyRecipient
  requireTokenBearingTxHash tx
  requireHomomorphicAdd prev next w.recipientIndex tokenSlot "receiver_delta" receiverDelta.amount
  ensureRowUnchangedExcept prev next w.recipientIndex tokenSlot
  ensureSlotsFrozen prev next [w.recipientIndex]
  requirePendingAddIncrement prev next w.recipientIndex tokenSlot
  verifyDecryptedTransferProof backends tx.channelUpdateZkp
    (.channelUpdate w.sourceSenderPk recipientPk w.senderBeforeCt w.senderAfterCt tx.senderDeltaCt
      receiverDelta.amount w.amount tx.tokenIndex)
  let balance ← rowAt next.balanceState.encBalances w.recipientIndex
  recipientDecryptionCheck backends w.recipientSk w.expectedAmount "receiver delta"
    receiverDelta.amount (balance tokenSlot)
  let digest ← getOrRevert tx.signingDigest .panic
  pure (updateInputs .receiverBundleApply prev next w.amount 1 (hashMember D tx.sourcePkG)
    (hashMember D receiverDelta.receiverPkG) digest)

/-! ## Balance refresh -/

structure BalanceRefreshUpdateWitness (B : Type) where
  channelRecord : ChannelRecord B
  regevPks : Slots RegevPk
  prevState : ChannelState B
  nextState : ChannelState B
  memberIndex : Nat
  tokenSlot : Nat
  refreshProof : ChannelProofEnvelope

def balanceRefreshZkpDomain : Nat := 0x494d5246

def balanceRefreshDigest (D : Type) {B : Type} [Hashing D B] (memberIndex : Nat)
    (tokenSlot : Fin maxChannelTokens) (oldCt newCt : RegevCiphertext) : Option B := do
  let old ← oldCt.digest D
  let new ← newCt.digest D
  some (keccak (D := D) [.elem balanceRefreshZkpDomain, .elem (memberIndex % 2 ^ 32),
    .elem tokenSlot.val, .bytes old, .bytes new])

def BalanceRefreshUpdateWitness.verify (D : Type) {B : Type} [Hashing D B] [DecidableEq B]
    (w : BalanceRefreshUpdateWitness B) (backends : Backends B) :
    Except ChannelStateUpdateError (ChannelStateUpdatePublicInputs B) := do
  let prev := w.prevState
  let next := w.nextState
  verifyRegevPkRoot D w.channelRecord w.regevPks
  verifyStateLinkage D prev next
  verifyBalanceStateCommon D w.channelRecord prev next
  requireSmallBlockUnchanged prev next
  verifyNextStateSignatures D w.channelRecord next
  requireH2Zero D next
  requireChainUnchanged prev next
  requireAccumulatorUnchanged prev.balanceState.settledTxAccumulatorRoot
    next.balanceState.settledTxAccumulatorRoot
  ensureSameChannelFund prev next
  ensureSameU256 "unallocated_confirmed_incoming" prev.unallocatedConfirmedIncoming
    next.unallocatedConfirmedIncoming
  ensureSameRoot "shared_native_nullifier_root" prev.sharedNativeNullifierRoot
    next.sharedNativeNullifierRoot
  let member ← memberIndexPubkeyHash w.channelRecord w.memberIndex
  ensureSlotsFrozen prev next [w.memberIndex]
  let tokenSlot ← activeTokenSlot prev.balanceState "refresh " w.tokenSlot
  requirePendingAddsReset next w.memberIndex tokenSlot
    "refresh must reset the member's pending_adds to 0"
  requirePendingAddsUnchangedExcept prev next w.memberIndex tokenSlot
  ensureRowUnchangedExcept prev next w.memberIndex tokenSlot
  let old ← rowAt prev.balanceState.encBalances w.memberIndex
  let new ← rowAt next.balanceState.encBalances w.memberIndex
  let pk ← slotAt w.regevPks w.memberIndex
  backends.regev w.refreshProof .balanceRefresh
    (.balanceRefresh pk (old tokenSlot) (new tokenSlot))
  let digest ← getOrRevert
    (balanceRefreshDigest D w.memberIndex tokenSlot (old tokenSlot) (new tokenSlot)) .panic
  pure (updateInputs .balanceRefresh prev next 0 0 (hashMember D member) (hashMember D member)
    digest)

/-! ## Registering a token -/

structure TokenRegisterUpdateWitness (B : Type) where
  channelRecord : ChannelRecord B
  prevState : ChannelState B
  nextState : ChannelState B
  tokenIndex : BitVec 32

def TokenRegisterUpdateWitness.verify (D : Type) {B : Type} [Hashing D B] [DecidableEq B]
    (w : TokenRegisterUpdateWitness B) :
    Except ChannelStateUpdateError (ChannelStateUpdatePublicInputs B) := do
  let prev := w.prevState
  let next := w.nextState
  verifyStateLinkage D prev next
  verifyBalanceStateShared D w.channelRecord prev next
  (prev.balanceState.verifyTokenRegisterTransition next.balanceState w.tokenIndex).mapError
    fun err => .invalidStateLinkage (toString err)
  requireH2Zero D next
  requireChainUnchanged prev next
  requireAccumulatorUnchanged prev.balanceState.settledTxAccumulatorRoot
    next.balanceState.settledTxAccumulatorRoot
  ensureSameChannelFund prev next
  ensureSameU256 "unallocated_confirmed_incoming" prev.unallocatedConfirmedIncoming
    next.unallocatedConfirmedIncoming
  ensureSameRoot "shared_native_nullifier_root" prev.sharedNativeNullifierRoot
    next.sharedNativeNullifierRoot
  revertIf (next.smallBlockNumber ≠ prev.smallBlockNumber) (.invalidStateLinkage
    "small_block_number must remain unchanged across a TokenRegister transition")
  revertIf (next.closeFreezeNonce ≠ prev.closeFreezeNonce) (.invalidStateLinkage
    "close_freeze_nonce must remain unchanged across a TokenRegister transition")
  let expected ← (prev.tokenRegisterNextState D w.tokenIndex).mapError
    (·.report .invalidStateLinkage)
  -- Signatures are collected on top of the canonical state.
  revertIf ({ expected with memberSignatures := next.memberSignatures } ≠ next)
    (.invalidStateLinkage
      ("TokenRegister next state is not the canonical token_register_next_state(prev, " ++
        "token_index) (full-freeze rebuild-equality, TM-1)"))
  verifyNextStateSignatures D w.channelRecord next
  pure (updateInputs .tokenRegister prev next 0 0 (zeroBytes D) (zeroBytes D) next.digest)

end Intmax.Channel
