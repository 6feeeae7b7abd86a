import Intmax.Channel.Transfers

/-! # Checks that the transition verifiers share -/

namespace Intmax.Channel

open Checked Hashing Trees Validity

inductive ChannelTransitionKind where
  | inChannelTransfer
  | interChannelSend
  | interChannelFundImport
  | receiverBundleApply
  | balanceRefresh
  | channelClose
  | specialClose
  | l1DepositImport
  | tokenRegister
deriving DecidableEq

structure ChannelStateUpdatePublicInputs (B : Type) where
  kind : ChannelTransitionKind
  channelId : ChannelId
  prevStateDigest : B
  nextStateDigest : B
  amount : BitVec 64
  prevStateVersion : BitVec 64
  nextStateVersion : BitVec 64
  h2Tag : B
  prevSettledTxChain : B
  nextSettledTxChain : B
  receiverEntryCount : BitVec 64
  senderUserIdHash : B
  receiverUserIdHash : B
  channelFundBefore : TokenRow U256
  channelFundAfter : TokenRow U256
  unallocatedBefore : U256
  unallocatedAfter : U256
  sharedNullifierBefore : B
  sharedNullifierAfter : B
  transitionDigest : B

/-- The texts leave out the digests that the source prints for debugging.  `panic` stands for an
    abort of the program. -/
inductive ChannelStateUpdateError where
  | invalidProofRole (expected actual : TransitionProofRole)
  | invalidProofBackend (expected actual : ProofBackend)
  | invalidStateLinkage (reason : String)
  | invalidRegevPkRoot (reason : String)
  | invalidStateVersion (reason : String)
  | invalidH2Tag (reason : String)
  | invalidSettledTxChain (reason : String)
  | invalidCiphertextTransition (reason : String)
  | invalidPendingAdds (reason : String)
  | invalidAmountRelation (reason : String)
  | invalidRootTransition (reason : String)
  | invalidTransitionDigest (reason : String)
  | invalidReceiverDeltaBundle (reason : String)
  | invalidSmallBlock (reason : String)
  | invalidMemberSignatures (reason : String)
  | invalidDecryption (reason : String)
  | proofVerification (reason : String)
  | panic

/-- What the verifiers are given from outside: the verifier of the lattice proofs, the verifier
    of the transport proofs and the decryption of a ciphertext into digits. -/
structure Backends (B : Type) where
  regev : ChannelProofEnvelope → RegevProofPurpose → RegevStatement →
    Except ChannelStateUpdateError Unit
  transport : ChannelProofEnvelope → ChannelStateUpdatePublicInputs B →
    Except ChannelStateUpdateError Unit
  decrypt : RegevSk → RegevCiphertext → List Nat

abbrev Check := Except ChannelStateUpdateError Unit

/-- An error of the channel types under a heading of the verifiers.  A panic is not caught. -/
def ChannelError.report (heading : String → ChannelStateUpdateError) :
    ChannelError → ChannelStateUpdateError
  | .panic => .panic
  | err => heading (toString err)

section
variable {D B : Type} [Hashing D B] [DecidableEq B]

/-! ## The states and their record -/

def verifyStateLinkage (D : Type) {B : Type} [Hashing D B] [DecidableEq B]
    (prev next : ChannelState B) : Check := do
  revertIf (prev.channelId ≠ next.channelId) (.invalidStateLinkage "channel id mismatch")
  -- The increment of a 64-bit counter wraps around.
  revertIf (next.epoch ≠ prev.epoch + 1)
    (.invalidStateLinkage "next epoch must equal prev epoch + 1")
  revertIf (next.prevDigest ≠ prev.digest)
    (.invalidStateLinkage "next prev_digest must equal prev digest")
  let prevDigest ← getOrRevert (prev.signingDigest D) .panic
  revertIf (prev.digest ≠ prevDigest) (.invalidStateLinkage
    "prev digest must match signing digest")
  let nextDigest ← getOrRevert (next.signingDigest D) .panic
  revertIf (next.digest ≠ nextDigest) (.invalidStateLinkage
    "next digest must match signing digest")

/-- One side of `verify_ordinary_state_metadata`. -/
def verifyParticipants (record : ChannelRecord B) (label : String) (state : ChannelState B) :
    Check :=
  revertIf (state.balanceState.memberCount ≠ record.memberCount ∨
      state.balanceState.delegateCount ≠ record.delegateCount)
    (.invalidStateLinkage
      s!"{label} member_count/delegate_count must match the trusted channel record")

def verifyOrdinaryStateMetadata (record : ChannelRecord B) (prev next : ChannelState B) :
    Check := do
  verifyParticipants record "prev" prev
  verifyParticipants record "next" next
  revertIf (next.closeFreezeNonce ≠ prev.closeFreezeNonce)
    (.invalidStateLinkage
      "close_freeze_nonce must remain unchanged across an ordinary transition")

def requireSmallBlockUnchanged (prev next : ChannelState B) : Check :=
  revertIf (next.smallBlockNumber ≠ prev.smallBlockNumber) (.invalidStateLinkage
    "small_block_number must remain unchanged across an in-channel send or refresh")

def verifyBalanceStateShared (D : Type) {B : Type} [Hashing D B] [DecidableEq B]
    (record : ChannelRecord B) (prev next : ChannelState B) : Check := do
  verifyOrdinaryStateMetadata record prev next
  (prev.balanceState.validate D).mapError fun err => .invalidCiphertextTransition (toString err)
  (next.balanceState.validate D).mapError fun err => .invalidCiphertextTransition (toString err)
  revertIf (prev.balanceState.channelId ≠ prev.channelId ∨
      next.balanceState.channelId ≠ next.channelId ∨ prev.channelId ≠ record.channelId)
    (.invalidStateLinkage "balance state channel_id must match the state and record channel_id")
  revertIf (next.balanceState.stateVersion ≠ prev.balanceState.stateVersion + 1)
    (.invalidStateVersion
      ("state_version must increment by exactly 1 (prev " ++
        s!"{prev.balanceState.stateVersion.toNat}, next {next.balanceState.stateVersion.toNat})"))
  revertIf (prev.balanceState.recipients ≠ next.balanceState.recipients) (.invalidStateLinkage
    ("recipients must remain unchanged across a state transition (B-1b: recipient changes are " ++
      "not a supported transition)"))
  revertIf (prev.balanceState.regevPkDigests ≠ next.balanceState.regevPkDigests)
    (.invalidStateLinkage
      ("regev_pk_digests must remain unchanged across a state transition (H-2: Regev key " ++
        "changes are not a supported transition — only genesis, delegate join and a §Q " ++
        "AddCosigner may write a slot digest)"))

def verifyBalanceStateCommon (D : Type) {B : Type} [Hashing D B] [DecidableEq B]
    (record : ChannelRecord B) (prev next : ChannelState B) : Check := do
  verifyBalanceStateShared D record prev next
  revertIf (prev.balanceState.tokenRegistry ≠ next.balanceState.tokenRegistry ∨
      prev.balanceState.tokenCount ≠ next.balanceState.tokenCount) (.invalidStateLinkage
    ("token_registry/token_count must remain unchanged across a state transition (TM-1/TM-9: " ++
      "only a dedicated TokenRegister transition may change them)"))

/-- The first key that is not canonical is reported. -/
def verifyRegevPkRoot (D : Type) {B : Type} [Hashing D B] [DecidableEq B]
    (record : ChannelRecord B) (regevPks : Slots RegevPk) : Check := do
  (List.finRange maxChannelMembers).forM fun index =>
    (validateRegevPk (regevPks index)).mapError fun err =>
      .invalidRegevPkRoot s!"regev_pks[{index.val}] is not canonical: {err}"
  let root ← getOrRevert (regevPkRoot D ((List.finRange maxChannelMembers).map regevPks)) .panic
  revertIf (root ≠ record.regevPkRoot)
    (.invalidRegevPkRoot "computed pk root does not match channel record root")

def verifyNextStateSignatures (D : Type) {B : Type} [Hashing D B] [DecidableEq B]
    (record : ChannelRecord B) (next : ChannelState B) : Check :=
  (validateAllMemberSignatures D record next.memberSignatures).mapError fun err =>
    .invalidMemberSignatures (toString err)

/-! ## Tags, chains and roots -/

def requireH2Zero (D : Type) {B : Type} [Hashing D B] [DecidableEq B] (next : ChannelState B) :
    Check :=
  revertIf (next.h2Tag ≠ zeroBytes D)
    (.invalidH2Tag "h2_tag must be zero for this transition kind (detail2 §C-2)")

def requireChainUnchanged (prev next : ChannelState B) : Check :=
  revertIf (next.balanceState.settledTxChain ≠ prev.balanceState.settledTxChain)
    (.invalidSettledTxChain "settled_tx_chain must remain unchanged for this transition kind")

def requireChainPush (D : Type) {B : Type} [Hashing D B] [DecidableEq B]
    (prev next : ChannelState B) (leaf : B) : Check :=
  revertIf (next.balanceState.settledTxChain ≠
      settledTxChainPush D prev.balanceState.settledTxChain leaf)
    (.invalidSettledTxChain "settled_tx_chain must equal push(prev_chain, leaf)")

def requireAccumulatorUnchanged (prevRoot nextRoot : B) : Check :=
  revertIf (prevRoot ≠ nextRoot) (.invalidSettledTxChain
    "settled_tx_accumulator_root must remain unchanged for this transition kind")

def settledTxAccumulatorHeight : Nat := 20

/-- A full accumulator panics. -/
def requireAccumulatorPush (prevAccumulator : IncrementalMerkleTree D B) (txHash nextRoot : B) :
    Check := do
  let advanced ← getOrRevert (prevAccumulator.push txHash) .panic
  let expected := ofDigest advanced.getRoot
  revertIf (expected ≠ nextRoot) (.invalidSettledTxChain
    "settled_tx_accumulator_root must equal push(prev_accumulator, tx_hash)")

def requireIncomingApplication (prevRoot nextRoot txHash : B) (index : BitVec 64)
    (proof : MerkleProof D) : Check :=
  revertIf (2 ^ settledTxAccumulatorHeight ≤ index.toNat ∨
      proof.siblings.length ≠ settledTxAccumulatorHeight ∨
      ofDigest (proof.getRoot (unappliedIncomingLeaf D txHash) index) ≠ prevRoot ∨
      ofDigest (proof.getRoot txHash index) ≠ nextRoot)
    (.invalidSettledTxChain
      "bundle must consume exactly one authenticated unapplied incoming leaf")

def ensureSameRoot (name : String) (before after : B) : Check :=
  revertIf (before ≠ after) (.invalidRootTransition s!"{name} must remain unchanged")

def ensureDifferentRoot (name : String) (before after : B) : Check :=
  revertIf (before = after) (.invalidRootTransition s!"{name} must change")

def ensureSameU256 (name : String) (before after : U256) : Check :=
  revertIf (before ≠ after) (.invalidRootTransition s!"{name} must remain unchanged")

/-! ## Rows of ciphertexts and counters -/

/-- Indexing a vector; outside of it the program panics. -/
def rowAt {α : Type} (rows : List (TokenRow α)) (index : Nat) :
    Except ChannelStateUpdateError (TokenRow α) :=
  getOrRevert rows[index]? .panic

/-- Indexing an array with one entry for each slot. -/
def slotAt {α : Type} (slots : Slots α) (index : Nat) : Except ChannelStateUpdateError α :=
  if inside : index < maxChannelMembers then .ok (slots ⟨index, inside⟩) else .error .panic

def ensureSlotUnchanged (prev next : ChannelState B) (index : Nat) : Check := do
  let before ← rowAt prev.balanceState.encBalances index
  let after ← rowAt next.balanceState.encBalances index
  revertIf (before ≠ after)
    (.invalidCiphertextTransition s!"balance slot {index} must remain bit-identical")

def ensureRowUnchangedExcept (prev next : ChannelState B) (index : Nat)
    (tokenSlot : Fin maxChannelTokens) : Check := do
  let before ← rowAt prev.balanceState.encBalances index
  let after ← rowAt next.balanceState.encBalances index
  (List.finRange maxChannelTokens).forM fun t =>
    revertIf (t ≠ tokenSlot ∧ before t ≠ after t) (.invalidCiphertextTransition
      (s!"balance slot {index} token position {t.val} must remain bit-identical (only " ++
        s!"token_slot {tokenSlot.val} may change, TM-2)"))

def requirePendingAddsUnchanged (prev next : ChannelState B) (index : Nat) : Check := do
  let before ← rowAt prev.balanceState.pendingAdds index
  let after ← rowAt next.balanceState.pendingAdds index
  revertIf (before ≠ after)
    (.invalidPendingAdds s!"pending_adds[{index}] must remain unchanged")

def requirePendingAddsUnchangedExcept (prev next : ChannelState B) (index : Nat)
    (tokenSlot : Fin maxChannelTokens) : Check := do
  let before ← rowAt prev.balanceState.pendingAdds index
  let after ← rowAt next.balanceState.pendingAdds index
  (List.finRange maxChannelTokens).forM fun t =>
    revertIf (t ≠ tokenSlot ∧ before t ≠ after t) (.invalidPendingAdds
      (s!"pending_adds[{index}][{t.val}] must remain unchanged (only token_slot {tokenSlot.val} " ++
        "may change)"))

def requirePendingAddIncrement (prev next : ChannelState B) (index : Nat)
    (tokenSlot : Fin maxChannelTokens) : Check := do
  let before ← rowAt prev.balanceState.pendingAdds index
  let after ← rowAt next.balanceState.pendingAdds index
  revertIf (maxHomoAddsBeforeRefresh ≤ (before tokenSlot).toNat) (.invalidPendingAdds
    (s!"slot {index} token {tokenSlot.val} has {(before tokenSlot).toNat} pending adds; refresh " ++
      "required before another add (D3)"))
  revertIf (after tokenSlot ≠ before tokenSlot + 1) (.invalidPendingAdds
    (s!"slot {index} token {tokenSlot.val} pending_adds must increment by 1 (before " ++
      s!"{(before tokenSlot).toNat}, after {(after tokenSlot).toNat})"))
  requirePendingAddsUnchangedExcept prev next index tokenSlot

/-- The slots apart from `named` keep their ciphertexts. -/
def ensureSlotsUnchanged (prev next : ChannelState B) (named : List Nat) : Check :=
  (List.range maxChannelMembers).forM fun index =>
    if index ∈ named then .ok () else ensureSlotUnchanged prev next index

/-- The slots apart from `named` keep their counters. -/
def requireSlotsAddsUnchanged (prev next : ChannelState B) (named : List Nat) : Check :=
  (List.range maxChannelMembers).forM fun index =>
    if index ∈ named then .ok () else requirePendingAddsUnchanged prev next index

/-- The slots apart from `named` keep both, checked slot by slot. -/
def ensureSlotsFrozen (prev next : ChannelState B) (named : List Nat) : Check :=
  (List.range maxChannelMembers).forM fun index =>
    if index ∈ named then .ok ()
    else do
      ensureSlotUnchanged prev next index
      requirePendingAddsUnchanged prev next index

/-- The recipient position is the homomorphic sum of itself and `delta`. -/
def requireHomomorphicAdd (prev next : ChannelState B) (index : Nat)
    (tokenSlot : Fin maxChannelTokens) (name : String) (delta : RegevCiphertext) : Check := do
  let before ← rowAt prev.balanceState.encBalances index
  let expected ← (addCiphertexts (before tokenSlot) delta).mapError fun err =>
    .invalidCiphertextTransition (toString err)
  let after ← rowAt next.balanceState.encBalances index
  revertIf (after tokenSlot ≠ expected) (.invalidCiphertextTransition
    s!"recipient position must equal add_ciphertexts(prev_recipient_ct, {name})")

/-- A token slot inside the layout and below the token count. -/
def activeTokenSlot (state : BalanceState B) (label : String) (tokenSlot : Nat) :
    Except ChannelStateUpdateError (Fin maxChannelTokens) :=
  if inside : tokenSlot < maxChannelTokens then do
    revertIf (state.tokenCount.toNat ≤ tokenSlot) (.invalidCiphertextTransition
      (s!"{label}token_slot {tokenSlot} out of range (>= token_count {state.tokenCount.toNat}, " ++
        "TM-8)"))
    pure ⟨tokenSlot, inside⟩
  else .error (.invalidCiphertextTransition
    (s!"{label}token_slot {tokenSlot} out of layout range (>= MAX_CHANNEL_TOKENS = " ++
      s!"{maxChannelTokens}, TM-8)"))

/-- The counter of a position that was encrypted anew. -/
def requirePendingAddsReset (next : ChannelState B) (index : Nat)
    (tokenSlot : Fin maxChannelTokens) (reason : String) : Check := do
  let after ← rowAt next.balanceState.pendingAdds index
  revertIf (after tokenSlot ≠ 0) (.invalidPendingAdds reason)

/-! ## Funds and tokens -/

def resolveTokenSlot (state : BalanceState B) (tokenIndex : BitVec 32) :
    Except ChannelStateUpdateError (Fin maxChannelTokens) :=
  getOrRevert ((List.finRange maxChannelTokens).find? fun t =>
      decide (t.val < state.tokenCount.toNat ∧ state.tokenRegistry t = tokenIndex))
    (.invalidAmountRelation
      (s!"base token_index {tokenIndex.toNat} is not registered in this channel's active " ++
        s!"registry (token_count {min state.tokenCount.toNat maxChannelTokens}) — rejecting " ++
        "fail-closed (TM-6/TM-7)"))

def ensureSameChannelFund (prev next : ChannelState B) : Check :=
  revertIf (prev.channelFund ≠ next.channelFund)
    (.invalidRootTransition "channel fund must remain unchanged")

def ensureFundIdentityUnchanged (prev next : ChannelState B) : Check := do
  revertIf (prev.channelFund.channelId ≠ next.channelFund.channelId)
    (.invalidRootTransition "channel_fund.channel_id must remain unchanged")
  revertIf (prev.channelFund.intmaxStateRoot ≠ next.channelFund.intmaxStateRoot)
    (.invalidRootTransition
      ("channel_fund.intmax_state_root must remain unchanged across an inter-channel transfer " ++
        "(only an L1 deposit import re-pins it)"))

def ensureFundsUnchangedExcept (prev next : ChannelState B) (tokenSlot : Fin maxChannelTokens) :
    Check :=
  (List.finRange maxChannelTokens).forM fun t =>
    revertIf (t ≠ tokenSlot ∧ prev.channelFund.amounts t ≠ next.channelFund.amounts t)
      (.invalidAmountRelation
        (s!"channel_fund.amounts[{t.val}] must remain unchanged (only the resolved token " ++
          s!"position {tokenSlot.val} may change, P2)"))

/-- `big` is `small` increased by `amount`; the sum itself may overflow and panic. -/
def requireIncrease (small big : U256) (amount : BitVec 64) (reason : String) : Check := do
  let sum ← getOrRevert (u256Add small (u64ToU256 amount)) .panic
  revertIf (big ≠ sum) (.invalidAmountRelation reason)

/-! ## Members and transfers -/

/-- `member_slot_index`. -/
def memberSlotIndex (record : ChannelRecord B) (pubkeyHash : B) :
    Except ChannelStateUpdateError (Fin maxChannelMembers) :=
  getOrRevert ((List.finRange maxChannelMembers).find? fun i =>
      decide (record.memberPkGs i = pubkeyHash))
    (.invalidStateLinkage "pubkey hash is not a channel member")

def memberIndexPubkeyHash (record : ChannelRecord B) (index : Nat) :
    Except ChannelStateUpdateError B :=
  if inside : index < maxChannelMembers then .ok (record.memberPkGs ⟨index, inside⟩)
  else .error (.invalidStateLinkage
    s!"member index {index} out of range (members: {maxChannelMembers})")

def requireTokenBearingTxHash [OfLimbs B] (tx : InterChannelTx D B) : Check := do
  let recomputed ← tx.computeTxHash.mapError (·.report .invalidSettledTxChain)
  revertIf (recomputed ≠ tx.txHash) (.invalidSettledTxChain
    ("descriptor tx_hash != token-bearing recompute from (ids(src, dest, token_index), " ++
      "tx_tree_root, tx_leaf) — rejecting fail-closed (TM-16)"))

/-- The one receiver of a transfer. -/
def singleReceiverDelta (tx : InterChannelTx D B) :
    Except ChannelStateUpdateError (ReceiverBalanceDelta B) :=
  match tx.receiverDeltas with
  | [delta] => .ok delta
  | deltas => .error (.invalidReceiverDeltaBundle
      s!"expected exactly 1 receiver delta (detail2 §A-2), got {deltas.length}")

/-- `reject_key_independent`, reported under a label. -/
def requireKeyDependent (label : String) (ct : RegevCiphertext) : Check :=
  ct.rejectKeyIndependent.mapError fun err => .invalidReceiverDeltaBundle s!"{label}: {err}"

def validateSignedSmallBlock (source : ChannelRecord B) (expectedSourceChannelId : ChannelId)
    (expectedCloseFreezeNonce : BitVec 64) (tx : InterChannelTx D B) : Check := do
  let signed := tx.signedSmallBlock
  revertIf (tx.sourceChannelId ≠ expectedSourceChannelId)
    (.invalidSmallBlock "source channel mismatch")
  revertIf (signed.message.channelId ≠ expectedSourceChannelId)
    (.invalidSmallBlock "small block message channel mismatch")
  revertIf (signed.message.bpMemberSlot ≠ source.bpMemberSlot)
    (.invalidSmallBlock "small block BP mismatch")
  let bp ← memberIndexPubkeyHash source source.bpMemberSlot.toNat
  revertIf (signed.message.bpPkG ≠ bp) (.invalidSmallBlock "small block BP mismatch")
  revertIf (signed.message.closeFreezeNonce ≠ expectedCloseFreezeNonce)
    (.invalidSmallBlock "small block close_freeze_nonce mismatch")
  revertIf (signed.message.mediumEpochHint ≠ 0 ∨ signed.mediumBlockNumber ≠ 0)
    (.invalidSmallBlock "retired medium-block numbers must be zero")
  revertIf (signed.aggregatedSignatureProof ≠ [])
    (.invalidSmallBlock "retired aggregated signature proof must be empty")
  revertIf (signed.confirmationProof ≠ [])
    (.invalidSmallBlock "retired confirmation proof must be empty")
  revertIf (tx.«seal» ≠ zeroBytes D ∨ tx.recipientMemo ≠ [] ∨ tx.transportProof ≠ [] ∨
      tx.txInclusionProof ≠ .default)
    (.invalidSmallBlock "retired inter-channel fields must use their canonical empty value")
  revertIf (tx.intmaxTransferCommitment = zeroBytes D) (.invalidSmallBlock
    "intmax_transfer_commitment must commit the canonical base Transfer")
  (validateMemberSignatureSlots D source signed.signatures).mapError fun err =>
    .invalidSmallBlock (toString err)

def hashMember (D : Type) {B : Type} [Hashing D B] (pubkeyHash : B) : B :=
  keccak (D := D) [.bytes pubkeyHash]

/-! ## Proofs -/

/-- The one purpose that a transfer statement is accepted under. -/
def verifyDecryptedTransferProof (backends : Backends B) (envelope : ChannelProofEnvelope)
    (statement : RegevStatement) : Check :=
  match statement with
  | .channelTx .. => backends.regev envelope .channelTxDecrypted statement
  | .channelUpdate .. => backends.regev envelope .channelUpdateDecrypted statement
  | _ => .error (.proofVerification "statement shape is not a transfer statement")

def verifyProof (backends : Backends B) (proof : ChannelProofEnvelope)
    (expectedRole : TransitionProofRole) (expectedBackend : ProofBackend)
    (publicInputs : ChannelStateUpdatePublicInputs B) : Check := do
  revertIf (proof.role ≠ expectedRole) (.invalidProofRole expectedRole proof.role)
  revertIf (proof.backend ≠ expectedBackend) (.invalidProofBackend expectedBackend proof.backend)
  backends.transport proof publicInputs

/-- The recipient's own look at what was sent: the amount is the expected one and the new balance
    still decrypts. -/
def recipientDecryptionCheck (backends : Backends B) (recipientSk : Option RegevSk)
    (expectedAmount : Option (BitVec 64)) (name : String) (delta balance : RegevCiphertext) :
    Check :=
  match recipientSk with
  | none => .ok ()
  | some sk => do
    let expected ← getOrRevert expectedAmount
      (.invalidDecryption "recipient_sk requires expected_amount")
    let decrypted ← (decryptAmount backends.decrypt sk delta).mapError fun err =>
      .invalidDecryption (toString err)
    revertIf (decrypted ≠ expected) (.invalidDecryption
      s!"{name} decrypts to {decrypted.toNat}, expected {expected.toNat}")
    let _ ← (decryptAmount backends.decrypt sk balance).mapError fun err =>
      .invalidDecryption s!"next recipient balance position does not decrypt: {err}"
    pure ()

end

end Intmax.Channel
