import Intmax.Balance.Transfers

/-! # Single withdrawals

A withdrawal pays the recipient of one transfer that a Balance proof has deducted.  The witness
opens the transfer inside its transaction, and the transaction inside the sent transactions of the
account and inside the block that settled it.
-/

namespace Intmax.Balance

open Checked Hashing Trees Validity

variable {D B : Type} [Hashing D B] [DecidableEq D] [DecidableEq B] [RecipientBytes D B]

/-- A pinned Balance verifier: its verifier data, and which proofs it accepts. -/
structure BalanceVerifier (D B : Type) where
  vd : List (Item D B)
  verify : BalanceFullPublicInputsTarget D B → Bool

structure Withdrawal (B : Type) where
  recipient : Address
  tokenIndex : BitVec 32
  amount : U256
  nullifier : B
  auxData : B

structure SingleWithdawalPublicInputs (D B : Type) where
  publicState : PublicState D
  withdrawal : Withdrawal B

inductive SingleWithdawalWitnessError (D : Type) where
  | balanceProofVerification (reason : String)
  | balancePublicInputs (reason : String)
  | privateStateCommitmentMismatch (expected actual : D)
  | txMerkleProof (reason : MerkleProofError D)
  | txV2MerkleProof (reason : MerkleProofError D)
  | transferWitness (reason : MerkleProofError D)
  | invalidRecipient (reason : String)
  | inconsistentWitness (reason : String)
  | accountState (reason : AccountStateError D)
  | updatePublicState (reason : UpdatePublicStateError D)
  | balancePublicStateMismatch

structure SingleWithdawalWitness (D B : Type) where
  balanceProof : BalanceFullPublicInputsTarget D B
  privateState : PrivateState D
  updatePublicState : UpdatePublicState D
  accountState : AccountState D B
  txMerkleProof : MerkleProof D
  txV2MerkleProof : Option (MerkleProof D)
  txV2 : Option (TxV2 D)
  tx : Tx D
  sentTxMerkleProof : MerkleProof D
  transferWitness : TransferWitness D B

namespace SingleWithdawalWitness

/-- The last of the checks: the transaction is in the block that settled it.  A block of typed
    transactions holds the typed form of it. -/
def verifyInclusion (w : SingleWithdawalWitness D B) (channelId : ChannelId) (txTreeRoot : D) :
    Except (SingleWithdawalWitnessError D) Unit :=
  match w.txV2, w.txV2MerkleProof with
  | some txV2, some proof => do
    (proof.verify txV2 (index64 channelId) txTreeRoot).mapError .txV2MerkleProof
    revertIf (txV2.txClass ≠ .userTransfer)
      (.inconsistentWitness "withdrawal tx_v2 must be TxClass::UserTransfer")
    revertIf (txV2.channelActionRoot ≠ zeroDigest)
      (.inconsistentWitness "withdrawal tx_v2 must have zero channel_action_root")
    revertIf (txV2.transferTreeRoot ≠ w.tx.transferTreeRoot)
      (.inconsistentWitness "tx_v2 transfer tree root mismatch")
    revertIf (txV2.nonce ≠ w.tx.nonce) (.inconsistentWitness
      s!"tx_v2 nonce mismatch: expected {w.tx.nonce.toNat}, got {txV2.nonce.toNat}")
  | none, none =>
    (w.txMerkleProof.verify w.tx (index64 channelId) txTreeRoot).mapError .txMerkleProof
  | _, _ => .error (.inconsistentWitness "tx_v2 and tx_v2_merkle_proof must be provided together")

/-- The withdrawal of the transfer that the witness opens. -/
def withdrawal (w : SingleWithdawalWitness D B) (channelId : ChannelId) :
    Except (SingleWithdawalWitnessError D) (Withdrawal B) := do
  let transfer := w.transferWitness.transfer
  let recipient ← (extractAddressFromRecipient D transfer.recipient).mapError .invalidRecipient
  let settledTransfer : SettledTransfer B :=
    { inner := transfer, source := channelId, transferIndex := w.transferWitness.transferIndex
      nonce := w.tx.nonce }
  pure
    { recipient, tokenIndex := transfer.tokenIndex, amount := transfer.amount
      nullifier := settledTransfer.nullifier D, auxData := transfer.auxData }

def toPublicInputs (w : SingleWithdawalWitness D B) (balanceVd : BalanceVerifier D B) :
    Except (SingleWithdawalWitnessError D) (SingleWithdawalPublicInputs D B) := do
  revertIf (w.balanceProof.vd ≠ balanceVd.vd)
    (.balanceProofVerification "cyclic verifier data check failed")
  revertIf (balanceVd.verify w.balanceProof = false)
    (.balanceProofVerification "verification failed")
  let balancePis ← w.balanceProof.pis.decode.mapError .balancePublicInputs
  let channelId := balancePis.channelId
  revertIf (balancePis.privateCommitment ≠ w.privateState.commitment)
    (.privateStateCommitmentMismatch balancePis.privateCommitment w.privateState.commitment)
  w.updatePublicState.verify.mapError .updatePublicState
  revertIf (w.updatePublicState.old ≠ balancePis.publicState) .balancePublicStateMismatch
  let publicState := w.updatePublicState.new
  (w.sentTxMerkleProof.verify w.tx (index64 w.tx.nonce) w.privateState.sentTxTreeRoot).mapError
    .txMerkleProof
  revertIf (w.transferWitness.transferTreeRoot ≠ w.tx.transferTreeRoot)
    (.inconsistentWitness "transfer tree root mismatch")
  w.transferWitness.verify.mapError .transferWitness
  revertIf (w.accountState.channelId ≠ channelId)
    (.inconsistentWitness "account state user != balance proof user")
  revertIf (w.accountState.accountTreeRoot ≠ publicState.accountTreeRoot)
    (.inconsistentWitness "user tree root mismatch")
  w.accountState.verify.mapError .accountState
  let txTreeRoot := reduceToHashOut w.accountState.sendLeaf.txTreeRoot
  w.verifyInclusion channelId txTreeRoot
  let withdrawal ← w.withdrawal channelId
  pure { publicState, withdrawal }

end SingleWithdawalWitness

end Intmax.Balance
