import Intmax.Validity.PublicState

/-! # The block step

A block step extends the chain of public states by one block.  It reads the proof of the block's
update of the channel tree and, where the block has deposits or registrations, the proofs of
these chains.  A proof is modelled by its public inputs, a verifier by the public inputs it
accepts.
-/

namespace Intmax.Validity

open Checked Hashing Trees

structure BlockChainPublicInputs (D B : Type) where
  initialExtPublicState : ExtendedPublicState D B
  extPublicState : ExtendedPublicState D B
deriving DecidableEq

/-- The verifier data that the step is given.  There is one update circuit for each supported
    number of users. -/
structure Verifiers (D B : Type) where
  blockChain : BlockChainPublicInputs D B → Bool
  updateAccount : BitVec 32 → Option (UpdateUserPublicInputs D B → Bool)
  depositChain : DepositChainPublicInputs D B → Bool
  channelRegChain : ChannelRegChainPublicInputs D B → Bool

structure BlockStepWitness (D B : Type) where
  numUsers : BitVec 32
  initialPublicState : Option (ExtendedPublicState D B)
  prevBlockChainProof : Option (BlockChainPublicInputs D B)
  depositHashChainProof : Option (DepositChainPublicInputs D B)
  channelRegHashChainProof : Option (ChannelRegChainPublicInputs D B)
  updateUserProof : UpdateUserPublicInputs D B
  publicStateMerkleProof : MerkleProof D

/-- One constructor for each text of the source's errors. -/
inductive BlockStepError (D : Type) where
  | prevBlockChainProofInvalid
  | initialPublicStateMissing
  | missingUpdateUserVerifierData (numUsers : BitVec 32)
  | updateAccountProofInvalid
  | prevBlockNumberAtMax
  | updateBlockNumberMismatch
  | updateInitialTreeRootMismatch
  | updateInitialBlockHashChainMismatch
  | updateInitialBpSigChainMismatch
  | depositProofMissing
  | depositProofInvalid
  | depositInitialHashChainMismatch
  | depositInitialTreeRootMismatch
  | depositInitialCountMismatch
  | depositResultingHashChainMismatch
  | depositBlockNumberMismatch
  | channelRegProofInvalid
  | channelRegInitialHashChainMismatch
  | channelRegInitialTreeRootMismatch
  | channelRegBlockNumberMismatch
  | registrationBlockUpdatesAccounts
  | channelRegProofIffChange
  | blockChannelRegHashChainMismatch
  | publicStateMerkleProof (error : MerkleProofError D)

namespace BlockStepWitness

variable {D B : Type} [DecidableEq D] [DecidableEq B]

/-- The public inputs that the step extends. -/
def prevInputs (v : Verifiers D B) (w : BlockStepWitness D B) :
    Except (BlockStepError D) (BlockChainPublicInputs D B) :=
  match w.prevBlockChainProof with
  | some prev => do
    revertIf (v.blockChain prev = false) .prevBlockChainProofInvalid
    pure prev
  | none => do
    let initialState ← getOrRevert w.initialPublicState .initialPublicStateMissing
    pure { initialExtPublicState := initialState, extPublicState := initialState }

/-- The deposit chain, the deposit tree and the number of deposits after the block.  A proof is
    read only when the block's deposit chain is not the previous one. -/
def depositPart (v : Verifiers D B) (w : BlockStepWitness D B) (prev : ExtendedPublicState D B)
    (blockNumber : BlockNumber) : Except (BlockStepError D) (B × D × U63) :=
  if prev.depositHashChain ≠ w.updateUserProof.depositHashChain then do
    let deposits ← getOrRevert w.depositHashChainProof .depositProofMissing
    revertIf (v.depositChain deposits = false) .depositProofInvalid
    revertIf (deposits.initialDepositHashChain ≠ prev.depositHashChain)
      .depositInitialHashChainMismatch
    revertIf (deposits.initialDepositTreeRoot ≠ prev.inner.depositTreeRoot)
      .depositInitialTreeRootMismatch
    revertIf (deposits.initialDepositCount ≠ prev.depositCount) .depositInitialCountMismatch
    revertIf (deposits.depositHashChain ≠ w.updateUserProof.depositHashChain)
      .depositResultingHashChainMismatch
    revertIf (deposits.blockNumber ≠ blockNumber) .depositBlockNumberMismatch
    pure (deposits.depositHashChain, deposits.depositTreeRoot, deposits.depositCount)
  else
    pure (prev.depositHashChain, prev.inner.depositTreeRoot, prev.depositCount)

/-- The registration chain and the channel tree after the block. -/
def channelRegPart (v : Verifiers D B) (w : BlockStepWitness D B) (prev : ExtendedPublicState D B)
    (blockNumber : BlockNumber) : Except (BlockStepError D) (B × D) :=
  match w.channelRegHashChainProof with
  | some registrations => do
    revertIf (v.channelRegChain registrations = false) .channelRegProofInvalid
    revertIf (registrations.initialChannelRegHashChain ≠ prev.channelRegHashChain)
      .channelRegInitialHashChainMismatch
    revertIf (registrations.initialChannelTreeRoot ≠ prev.inner.accountTreeRoot)
      .channelRegInitialTreeRootMismatch
    revertIf (registrations.blockNumber ≠ blockNumber) .channelRegBlockNumberMismatch
    -- R6: a registration block does not update users.
    revertIf (w.updateUserProof.newAccountTreeRoot ≠ w.updateUserProof.prevAccountTreeRoot)
      .registrationBlockUpdatesAccounts
    pure (registrations.channelRegHashChain, registrations.channelTreeRoot)
  | none => pure (prev.channelRegHashChain, w.updateUserProof.newAccountTreeRoot)

def toPublicInputs [Hashing D B] (v : Verifiers D B) (w : BlockStepWitness D B) :
    Except (BlockStepError D) (BlockChainPublicInputs D B) := do
  let prevInputs ← w.prevInputs v
  let prev := prevInputs.extPublicState
  let update := w.updateUserProof
  let verifyUpdate ← getOrRevert (v.updateAccount w.numUsers)
    (.missingUpdateUserVerifierData w.numUsers)
  revertIf (verifyUpdate update = false) .updateAccountProofInvalid
  let blockNumber ← getOrRevert (U63.add prev.inner.blockNumber 1) .prevBlockNumberAtMax
  revertIf (update.blockNumber ≠ blockNumber) .updateBlockNumberMismatch
  revertIf (update.prevAccountTreeRoot ≠ prev.inner.accountTreeRoot)
    .updateInitialTreeRootMismatch
  revertIf (update.prevBlockHashChain ≠ prev.blockHashChain) .updateInitialBlockHashChainMismatch
  revertIf (update.prevBpSigChain ≠ prev.bpSigChain) .updateInitialBpSigChainMismatch
  let deposits ← w.depositPart v prev blockNumber
  let channels ← w.channelRegPart v prev blockNumber
  revertIf (decide (channels.1 ≠ prev.channelRegHashChain) ≠ w.channelRegHashChainProof.isSome)
    .channelRegProofIffChange
  -- G6: the chain in the block hash is the chain of the resulting state.
  revertIf (update.channelRegHashChain ≠ channels.1) .blockChannelRegHashChainMismatch
  (w.publicStateMerkleProof.verify (Leafable.emptyLeaf D : PublicState D)
    prev.inner.blockNumber.asU64 prev.inner.prevPublicStateRoot).mapError .publicStateMerkleProof
  let prevPublicStateRoot :=
    w.publicStateMerkleProof.getRoot prev.inner prev.inner.blockNumber.asU64
  pure
    { initialExtPublicState := prevInputs.initialExtPublicState
      extPublicState :=
        { inner :=
            { blockNumber, timestamp := update.blockTimestamp, accountTreeRoot := channels.2
              depositTreeRoot := deposits.2.1, prevPublicStateRoot }
          blockHashChain := update.newBlockHashChain
          depositHashChain := deposits.1
          depositCount := deposits.2.2
          channelRegHashChain := channels.1
          bpSigChain := update.newBpSigChain } }

end BlockStepWitness

end Intmax.Validity
